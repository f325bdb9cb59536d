import Orchestrator.Recovery.ContactPolicy

/-!
# What recording more does to the contact policy

More events and more attempts close channels, with one exception: the cooldown is counted from
the attempt whose `sentAt` is the greatest string, which need not be the latest.

* `permits_iff`: when a channel is open;
* `lastAttempt_perm`, `evaluateContactPolicy_perm`: the order of the records does not matter;
* `contact_policy_monotone_iff`: recording more never reopens a channel just when the attempt
  the cooldown is counted from does not move back in time;
* `contact_policy_reopens`: two attempts within one second reopen it.
-/

namespace Orchestrator

open List (Subperm Perm)

variable {X : RecoveryClockwork} {channel : RecoveryChannel}

/-! ## Open channels -/

theorem channelResult_permitted (channel : RecoveryChannel)
    (reasons : List ContactPolicyReasonCode) :
    (channelResult channel reasons).permitted = true ↔ reasons = [] := by
  simp [channelResult]

theorem permits_iff {input : ContactPolicyInput} :
    Permits X input channel ↔ refusedOutright input = none ∧
      channel ∈ input.config.allowedChannels ∧
      ∃ inWindow, isWithinContactWindow X input.now input.config = .ok inWindow ∧
        channelReasons input inWindow (ageExceeded input) channel = [] := by
  unfold Permits evaluateContactPolicy
  cases hrefused : refusedOutright input with
  | some refused =>
    obtain ⟨channels, reason⟩ := refused
    simp [refusal]
  | none =>
    cases hwindow : isWithinContactWindow X input.now input.config with
    | error e => simp [bind, Except.bind]
    | ok inWindow =>
      simp only [bind, Except.bind, pure, Except.pure, Except.ok.injEq, exists_eq_left', true_and,
        List.mem_map, exists_exists_and_eq_and, channelResult_permitted]
      constructor
      · rintro ⟨c, hc, rfl, hreasons⟩
        exact ⟨hc, hreasons⟩
      · rintro ⟨hc, hreasons⟩
        exact ⟨channel, hc, rfl, hreasons⟩

/-- A channel has no reason against it. -/
theorem channelReasons_eq_nil {input : ContactPolicyInput} {inWindow ageExceeded : Bool} :
    channelReasons input inWindow ageExceeded channel = [] ↔
      inWindow = true ∧ ageExceeded = false ∧
      ((input.lead.address channel).all (·.isEmpty) = false ∧
        input.lead.optIn channel ≠ some false) ∧
      (input.attempts.filter (·.channel = channel)).length < input.config.maxAttempts channel ∧
      coolingDown input channel = false := by
  unfold channelReasons
  simp only [List.append_eq_nil_iff, ite_eq_left_iff, ite_eq_right_iff, List.cons_ne_nil,
    imp_false, and_assoc, ge_iff_le, not_le, Bool.not_eq_true, Bool.not_eq_false, ne_eq]

/-- The first checks refuse whatever they refused with fewer events. -/
theorem refusedOutright_mono {input : ContactPolicyInput} {events events' : List LeadEvent}
    (hevents : events.Subperm events') (attempts attempts' : List RecoveryAttempt)
    (h : refusedOutright { input with events := events', attempts := attempts' } = none) :
    refusedOutright { input with events := events, attempts := attempts } = none := by
  have hany : ∀ p : LeadEvent → Bool, events.any p = true → events'.any p = true := by
    intro p hp
    obtain ⟨e, he, hpe⟩ := List.any_eq_true.mp hp
    exact List.any_eq_true.mpr ⟨e, hevents.subset he, hpe⟩
  unfold refusedOutright at h ⊢
  simp only at h ⊢
  split_ifs at h with henabled hclosed hsuppressed hrevoked hconverted hresponded
  rw [if_neg henabled, if_neg hclosed, if_neg fun h => hsuppressed (h.imp_right (hany _)),
    if_neg hrevoked, if_neg fun h => hconverted ⟨h.1, hany _ h.2⟩,
    if_neg fun h => hresponded ⟨h.1, hany _ h.2⟩]

/-! ## The attempt the cooldown is counted from -/

instance : Std.Total RecoveryAttempt.SortsBefore where
  total a b := le_total b.sentAt.text a.sentAt.text

instance : IsTrans RecoveryAttempt RecoveryAttempt.SortsBefore where
  trans _ _ _ hab hbc := le_trans hbc hab

theorem mem_newestFirst {attempts : List RecoveryAttempt} {a : RecoveryAttempt} :
    a ∈ newestFirst channel attempts ↔ a ∈ attempts ∧ a.channel = channel := by
  rw [newestFirst, List.mem_insertionSort, List.mem_filter, decide_eq_true_eq]

theorem mem_of_lastAttempt {attempts : List RecoveryAttempt} {a : RecoveryAttempt}
    (h : lastAttempt channel attempts = some a) : a ∈ attempts ∧ a.channel = channel :=
  mem_newestFirst.mp (List.mem_of_mem_head? (Option.mem_def.mpr h))

/-- No attempt on the channel has a greater `sentAt`. -/
theorem sentAt_le_lastAttempt {attempts : List RecoveryAttempt} {a b : RecoveryAttempt}
    (h : lastAttempt channel attempts = some a) (hb : b ∈ attempts)
    (hchannel : b.channel = channel) : b.sentAt.text ≤ a.sentAt.text := by
  have hsorted : (newestFirst channel attempts).Pairwise RecoveryAttempt.SortsBefore :=
    List.pairwise_insertionSort _ _
  have hmem : b ∈ newestFirst channel attempts := mem_newestFirst.mpr ⟨hb, hchannel⟩
  obtain ⟨rest, hrest⟩ := List.head?_eq_some_iff.mp h
  rw [hrest] at hsorted hmem
  rcases List.mem_cons.mp hmem with rfl | hmem
  · exact le_refl _
  · exact List.rel_of_pairwise_cons hsorted hmem

theorem lastAttempt_eq_none {attempts : List RecoveryAttempt} :
    lastAttempt channel attempts = none ↔ ∀ a ∈ attempts, a.channel ≠ channel := by
  rw [lastAttempt, List.head?_eq_none_iff, List.eq_nil_iff_forall_not_mem]
  refine forall_congr' fun a => ?_
  rw [mem_newestFirst, not_and]

/-! ## The order of the records -/

namespace IsoDateTime

theorem digitChar_inj {m n : ℕ} (hm : m < 10) (hn : n < 10)
    (h : Nat.digitChar m = Nat.digitChar n) : m = n := by
  revert h
  interval_cases m <;> interval_cases n <;> decide

theorem twoDigits_inj {m n : ℕ} (hm : m < 100) (hn : n < 100) (h : twoDigits m = twoDigits n) :
    m = n := by
  simp only [twoDigits, List.cons.injEq, and_true] at h
  have htens := digitChar_inj (by omega) (by omega) h.1
  have hones := digitChar_inj (by omega) (by omega) h.2
  omega

theorem map_digitChar_inj {ds ds' : List ℕ} (hds : ∀ d ∈ ds, d < 10) (hds' : ∀ d ∈ ds', d < 10)
    (h : ds.map Nat.digitChar = ds'.map Nat.digitChar) : ds = ds' := by
  induction ds generalizing ds' with
  | nil => simpa using h.symm
  | cons d ds ih =>
    cases ds' with
    | nil => simp at h
    | cons d' ds' =>
      simp only [List.map_cons, List.cons.injEq] at h
      rw [digitChar_inj (hds d (by simp)) (hds' d' (by simp)) h.1,
        ih (fun d hd => hds d (by simp [hd])) (fun d hd => hds' d (by simp [hd])) h.2]

theorem secondText_inj {s s' : Option (ℕ × List ℕ)}
    (hs : ∀ p ∈ s, p.1 < 60 ∧ ∀ d ∈ p.2, d < 10) (hs' : ∀ p ∈ s', p.1 < 60 ∧ ∀ d ∈ p.2, d < 10)
    (h : secondText s = secondText s') : s = s' := by
  rcases s with _ | ⟨n, _ | ⟨d, ds⟩⟩ <;> rcases s' with _ | ⟨n', _ | ⟨d', ds'⟩⟩ <;>
    simp only [secondText, twoDigits, List.cons_append, List.nil_append, List.cons.injEq,
      reduceCtorEq, List.map_cons, and_true, true_and] at h
  · rfl
  · obtain ⟨htens, hones⟩ := h
    have hn := (hs _ rfl).1
    have hn' := (hs' _ rfl).1
    have hsecond : n = n' := twoDigits_inj (by omega) (by omega) (by simp [twoDigits, htens, hones])
    rw [hsecond]
  · simp at h
  · simp at h
  · obtain ⟨htens, hones, hd, hds⟩ := h
    have hn := hs _ rfl
    have hn' := hs' _ rfl
    have hsecond : n = n' := twoDigits_inj (by omega) (by omega) (by simp [twoDigits, htens, hones])
    have hfraction : d :: ds = d' :: ds' := map_digitChar_inj hn.2 hn'.2 (by simp [hd, hds])
    rw [hsecond, hfraction]

/-- A timestamp is what is written. -/
theorem text_inj {t t' : IsoDateTime} (h : t.text = t'.text) : t = t' := by
  obtain ⟨year, month, day, hour, minute, second, hyear, hmonth, hday, hhour, hminute, hsecond⟩ := t
  obtain ⟨year', month', day', hour', minute', second', hyear', hmonth', hday', hhour', hminute',
    hsecond'⟩ := t'
  have hday₁ : ∀ y m, daysInMonth y m ≤ 31 := by
    intro y m
    unfold daysInMonth
    split_ifs <;> omega
  have hday₂ := hday₁ year month
  have hday₃ := hday₁ year' month'
  simp only [text, twoDigits, List.cons_append, List.nil_append, List.cons.injEq, true_and] at h
  obtain ⟨hy₁, hy₂, hy₃, hy₄, hm₁, hm₂, hd₁, hd₂, hh₁, hh₂, hn₁, hn₂, hs⟩ := h
  have hcentury : year / 100 = year' / 100 :=
    twoDigits_inj (by omega) (by omega) (by simp only [twoDigits, hy₁, hy₂])
  have hyears : year % 100 = year' % 100 :=
    twoDigits_inj (by omega) (by omega) (by simp only [twoDigits, hy₃, hy₄])
  have hmonths : month = month' :=
    twoDigits_inj (by omega) (by omega) (by simp [twoDigits, hm₁, hm₂])
  have hdays : day = day' :=
    twoDigits_inj (by omega) (by omega) (by simp [twoDigits, hd₁, hd₂])
  have hhours : hour = hour' :=
    twoDigits_inj (by omega) (by omega) (by simp [twoDigits, hh₁, hh₂])
  have hminutes : minute = minute' :=
    twoDigits_inj (by omega) (by omega) (by simp [twoDigits, hn₁, hn₂])
  have hseconds : second = second' := secondText_inj hsecond hsecond' (List.append_cancel_right hs)
  have hyear₁ : year = year' := by omega
  subst hyear₁ hmonths hdays hhours hminutes hseconds
  rfl

end IsoDateTime

/-- The order of the attempts does not change when the last one on a channel was sent. -/
theorem lastAttempt_perm {attempts attempts' : List RecoveryAttempt} (h : attempts.Perm attempts') :
    (lastAttempt channel attempts).map (·.sentAt) =
      (lastAttempt channel attempts').map (·.sentAt) := by
  cases hlast : lastAttempt channel attempts with
  | none =>
    rw [lastAttempt_eq_none] at hlast
    rw [lastAttempt_eq_none.mpr fun a ha => hlast a (h.mem_iff.mpr ha)]
  | some a =>
    obtain ⟨ha, hchannel⟩ := mem_of_lastAttempt hlast
    cases hlast' : lastAttempt channel attempts' with
    | none => exact absurd hchannel (lastAttempt_eq_none.mp hlast' a (h.mem_iff.mp ha))
    | some a' =>
      obtain ⟨ha', hchannel'⟩ := mem_of_lastAttempt hlast'
      have hle := sentAt_le_lastAttempt hlast (h.mem_iff.mpr ha') hchannel'
      have hge := sentAt_le_lastAttempt hlast' (h.mem_iff.mp ha) hchannel
      rw [Option.map_some, Option.map_some, IsoDateTime.text_inj (le_antisymm hge hle)]

/-- The cooldown depends on when the last attempt was sent only. -/
theorem coolingDown_eq (input : ContactPolicyInput) (channel : RecoveryChannel) :
    coolingDown input channel = ((lastAttempt channel input.attempts).map (·.sentAt)).any fun t =>
      decide (0 < input.config.cooldownMinutes) &&
        decide (input.now - t.dateParse < input.config.cooldownMinutes * 60000) := by
  unfold coolingDown
  cases lastAttempt channel input.attempts <;> rfl

theorem channelReasons_perm {input : ContactPolicyInput} {attempts : List RecoveryAttempt}
    {events : List LeadEvent} (h : input.attempts.Perm attempts) (inWindow ageExceeded : Bool) :
    channelReasons { input with events := events, attempts := attempts } inWindow ageExceeded
      channel = channelReasons input inWindow ageExceeded channel := by
  unfold channelReasons
  rw [coolingDown_eq, coolingDown_eq]
  simp only
  rw [lastAttempt_perm h, (h.filter _).length_eq]

/-- Neither the order of the events nor that of the attempts changes the answer. -/
theorem evaluateContactPolicy_perm (X : RecoveryClockwork) (input : ContactPolicyInput)
    {events : List LeadEvent} {attempts : List RecoveryAttempt} (hevents : input.events.Perm events)
    (hattempts : input.attempts.Perm attempts) :
    evaluateContactPolicy X { input with events := events, attempts := attempts } =
      evaluateContactPolicy X input := by
  have hany : ∀ p : LeadEvent → Bool, events.any p = input.events.any p :=
    fun p => (hevents.any_eq (f := p)).symm
  have hrefused : refusedOutright { input with events := events, attempts := attempts } =
      refusedOutright input := by
    unfold refusedOutright
    simp only [hany]
  unfold evaluateContactPolicy
  rw [hrefused]
  simp only [channelReasons_perm hattempts]
  rfl

/-! ## Recording more -/

theorem filter_length_le {attempts attempts' : List RecoveryAttempt}
    (h : attempts.Subperm attempts') :
    (attempts.filter (·.channel = channel)).length ≤
      (attempts'.filter (·.channel = channel)).length :=
  (h.filter _).length_le

/-- What is counted from the attempt of `attempts'` on is over, if it is counted from an
earlier one of `attempts`. -/
theorem coolingDown_mono {input : ContactPolicyInput} {events events' : List LeadEvent}
    {attempts attempts' : List RecoveryAttempt} (hsub : attempts.Subperm attempts')
    (hlast : ∀ a ∈ lastAttempt channel attempts, ∀ a' ∈ lastAttempt channel attempts',
      a.sentAt.dateParse ≤ a'.sentAt.dateParse)
    (h : coolingDown { input with events := events', attempts := attempts' } channel = false) :
    coolingDown { input with events := events, attempts := attempts } channel = false := by
  unfold coolingDown at h ⊢
  cases ha : lastAttempt channel attempts with
  | none => rfl
  | some a =>
    obtain ⟨hmem, hchannel⟩ := mem_of_lastAttempt ha
    cases ha' : lastAttempt channel attempts' with
    | none => exact absurd hchannel (lastAttempt_eq_none.mp ha' a (hsub.subset hmem))
    | some a' =>
      have hle := hlast a ha a' ha'
      simp only [ha'] at h
      simp only [Bool.and_eq_false_iff, decide_eq_false_iff_not, not_lt] at h ⊢
      exact h.imp_right fun h => by linarith

/-- For the channel, with these attempts: more events and attempts never reopen it, and the
order of either does not matter. -/
structure ContactMonotone (X : RecoveryClockwork) (channel : RecoveryChannel)
    (attempts attempts' : List RecoveryAttempt) : Prop where
  closes : ∀ (input : ContactPolicyInput) (events events' : List LeadEvent),
    events.Subperm events' →
    Permits X { input with events := events', attempts := attempts' } channel →
    Permits X { input with events := events, attempts := attempts } channel
  ordered : ∀ (input : ContactPolicyInput) (events events' : List LeadEvent)
    (reordered : List RecoveryAttempt), events.Perm events' → attempts'.Perm reordered →
    evaluateContactPolicy X { input with events := events', attempts := reordered } =
      evaluateContactPolicy X { input with events := events, attempts := attempts' }

/-- The cooldown never stands in the way: the attempts reach the ceiling of every configuration,
or the one the cooldown is counted from is no earlier with more attempts. -/
def CooldownKept (channel : RecoveryChannel) (attempts attempts' : List RecoveryAttempt) : Prop :=
  maxAttemptsCeiling ≤ (attempts'.filter (·.channel = channel)).length ∨
    ∀ a ∈ lastAttempt channel attempts, ∀ a' ∈ lastAttempt channel attempts',
      a.sentAt.dateParse ≤ a'.sentAt.dateParse

theorem maxAttempts_le (config : RecoveryConfiguration) (channel : RecoveryChannel) :
    config.maxAttempts channel ≤ maxAttemptsCeiling := by
  obtain ⟨⟨-, hsms⟩, ⟨-, hemail⟩, -, hcall⟩ := config.attempts_capped
  cases channel
  · exact hsms
  · exact hemail
  · exact hcall

/-- A lead that can be reached on every channel, at an open hour, with one minute to wait. -/
def openInput (timezone : String) (channel : RecoveryChannel) (now : ℤ) : ContactPolicyInput where
  lead := { leadId := "lead_1", phone := some "1", email := some "lead" }
  events := []
  attempts := []
  config :=
    { allowedChannels := [channel]
      contactWindow := ⟨0, 24, [0, 1, 2, 3, 4, 5, 6]⟩
      timezone := timezone
      maxSmsAttempts := 5
      maxEmailAttempts := 5
      maxCallTasks := 5
      cooldownMinutes := 1
      maximumRecoveryAgeDays := 90
      channels_nonempty := List.cons_ne_nil _ _ }
  now := now
  gapDetectedAt := now

/-- `Intl` knows a timezone, and gives each instant an hour of the day and a weekday there. -/
def RecoveryClockwork.Knows (X : RecoveryClockwork) (timezone : String) : Prop :=
  ∀ now, ∃ hour weekday, X.format now timezone = some (hour, weekday) ∧ hour < 24 ∧
    weekday ∈ weekdays

theorem openInput_inWindow {timezone : String} (hX : X.Knows timezone)
    (channel : RecoveryChannel) (now : ℤ) :
    isWithinContactWindow X now (openInput timezone channel now).config = .ok true := by
  obtain ⟨hour, weekday, hformat, hhour, hweekday⟩ := hX now
  have hday : ∃ day < 7, weekdays.idxOf? weekday = some day := by
    fin_cases hweekday <;> exact ⟨_, by decide, rfl⟩
  obtain ⟨day, hday, hidx⟩ := hday
  have hlocal : localTimeParts X now timezone = .ok (hour, day) := by
    unfold localTimeParts
    rw [hformat]
    simp only [hidx]
    rw [if_neg (by omega)]
  unfold isWithinContactWindow
  simp only [openInput, hlocal, bind, Except.bind, pure, Except.pure, Except.ok.injEq,
    Bool.and_eq_true]
  refine ⟨⟨?_, decide_eq_true (Nat.zero_le _)⟩, decide_eq_true hhour⟩
  interval_cases day <;> simp

/-- With nothing else in the way, a channel is open just when the cooldown is over. -/
theorem permits_openInput {timezone : String} (hX : X.Knows timezone) {now : ℤ}
    {attempts : List RecoveryAttempt}
    (hcount : (attempts.filter (·.channel = channel)).length < maxAttemptsCeiling) :
    Permits X { openInput timezone channel now with events := [], attempts := attempts } channel ↔
      ∀ a ∈ lastAttempt channel attempts, 60000 ≤ now - a.sentAt.dateParse := by
  rw [permits_iff]
  have hwindow := openInput_inWindow hX channel now
  have hmax : (openInput timezone channel now).config.maxAttempts channel = maxAttemptsCeiling := by
    cases channel <;> rfl
  have haddress : ((openInput timezone channel now).lead.address channel).all (·.isEmpty) = false ∧
      (openInput timezone channel now).lead.optIn channel ≠ some false := by
    cases channel <;> exact ⟨rfl, fun h => nomatch h⟩
  have hcooling : coolingDown
      { openInput timezone channel now with events := [], attempts := attempts } channel = false ↔
      ∀ a ∈ lastAttempt channel attempts, 60000 ≤ now - a.sentAt.dateParse := by
    unfold coolingDown
    cases lastAttempt channel attempts with
    | none => simp
    | some a =>
      simp only [openInput, Nat.cast_one, one_mul, Nat.lt_one_iff, decide_true, Bool.true_and,
        decide_eq_false_iff_not, not_lt, Option.mem_def, Option.some.injEq, forall_eq']
  rw [← hcooling]
  constructor
  · rintro ⟨-, -, inWindow, -, hreasons⟩
    exact (channelReasons_eq_nil.mp hreasons).2.2.2.2
  · intro hover
    refine ⟨rfl, List.mem_singleton_self _, true, hwindow, channelReasons_eq_nil.mpr ?_⟩
    refine ⟨rfl, ?_, haddress, ?_, hover⟩
    · simp only [ageExceeded, openInput, sub_self, gt_iff_lt, decide_eq_false_iff_not, not_lt]
      positivity
    · rw [hmax]
      exact hcount

/-- Recording more never reopens a channel just when the attempt the cooldown is counted from
does not move back in time. -/
theorem contact_policy_monotone_iff (X : RecoveryClockwork) (timezone : String)
    (hX : X.Knows timezone) (channel : RecoveryChannel) (attempts attempts' : List RecoveryAttempt)
    (hsub : attempts.Subperm attempts') :
    ContactMonotone X channel attempts attempts' ↔ CooldownKept channel attempts attempts' := by
  constructor
  · rintro ⟨hcloses, -⟩
    unfold CooldownKept
    by_contra! hback
    obtain ⟨hcount, a, ha, a', ha', hlt⟩ := hback
    -- a minute after the attempt that the longer history counts from
    have hpermits : Permits X { openInput timezone channel (a'.sentAt.dateParse + 60000) with
        events := [], attempts := attempts' } channel := by
      rw [permits_openInput hX hcount, Option.mem_def.mp ha']
      rintro _ ⟨⟩
      omega
    have hreopened := (permits_openInput hX ((filter_length_le hsub).trans_lt hcount)).mp
      (hcloses _ [] [] (Subperm.refl _) hpermits) a ha
    omega
  · intro hkept
    refine ⟨?_, ?_⟩
    · intro input events events' hevents hpermits
      rw [permits_iff] at hpermits ⊢
      obtain ⟨hrefused, hallowed, inWindow, hwindow, hreasons⟩ := hpermits
      obtain ⟨hin, hage, hlead, hlimit, hcooled⟩ := channelReasons_eq_nil.mp hreasons
      refine ⟨refusedOutright_mono hevents _ _ hrefused, hallowed, inWindow, hwindow, ?_⟩
      refine channelReasons_eq_nil.mpr ⟨hin, hage, hlead, ?_, ?_⟩
      · exact (filter_length_le hsub).trans_lt hlimit
      · rcases hkept with hceiling | hlast
        · exact absurd (hlimit.trans_le (maxAttempts_le _ _)) (not_lt.mpr hceiling)
        · exact coolingDown_mono hsub hlast hcooled
    · intro input events events' reordered hevents hattempts
      exact evaluateContactPolicy_perm X
        { input with events := events, attempts := attempts' } hevents hattempts

/-! ## Two attempts within one second -/

namespace ContactScenario

/-- A text message of 10:00:00 and so many tenths of a second. -/
def message (attemptId : String) (fraction : List ℕ)
    (hfraction : ∀ d ∈ fraction, d < 10 := by decide) : RecoveryAttempt where
  attemptId := attemptId
  channel := .sms
  sentAt :=
    { year := 2026
      month := 3
      day := 2
      hour := 10
      minute := 0
      second := some (0, fraction)
      wellFormed := by
        refine ⟨by decide, by decide, by decide, by decide, by decide, ?_⟩
        rintro _ ⟨⟩
        exact ⟨Nat.zero_lt_succ _, hfraction⟩ }

/-- It is always noon, and a Monday. -/
def noon : RecoveryClockwork := ⟨fun _ _ => some (12, "Mon")⟩

theorem noon_knows : noon.Knows "UTC" :=
  fun _ => ⟨12, "Mon", rfl, by decide, by decide⟩

end ContactScenario

open ContactScenario

/-- A second message two tenths of a second later: the theorem on these attempts. -/
theorem contact_policy_monotone_tenths :
    ContactMonotone noon .sms [message "attempt_1" [3]]
      [message "attempt_1" [3], message "attempt_2" [5]] :=
  (contact_policy_monotone_iff noon "UTC" noon_knows .sms _ _
    (List.subperm_of_subset (by decide) (by decide))).mpr (by
      unfold CooldownKept
      decide)

/-- The message of `10:00:00.500Z` is followed by one recorded as `10:00:00Z`, whose text is the
greater one: the channel is open again half a second early. -/
theorem contact_policy_reopens :
    ¬∀ (channel : RecoveryChannel) (attempts attempts' : List RecoveryAttempt),
      attempts.Subperm attempts' → ContactMonotone noon channel attempts attempts' := by
  intro h
  have hsub : [message "attempt_1" [5, 0, 0]].Subperm
      [message "attempt_1" [5, 0, 0], message "attempt_2" []] :=
    List.subperm_of_subset (by decide) (by decide)
  have hkept := (h .sms _ _ hsub).closes
    (openInput "UTC" .sms ((message "attempt_2" []).sentAt.dateParse + 60000)) [] []
    (Subperm.refl _)
  have hopen : Permits noon { openInput "UTC" .sms
      ((message "attempt_2" []).sentAt.dateParse + 60000) with
      events := [], attempts := [message "attempt_1" [5, 0, 0], message "attempt_2" []] } .sms := by
    rw [permits_openInput noon_knows (by decide)]
    decide
  have hclosed := hkept hopen
  rw [permits_openInput noon_knows (by decide)] at hclosed
  exact absurd hclosed (by decide)

end Orchestrator
