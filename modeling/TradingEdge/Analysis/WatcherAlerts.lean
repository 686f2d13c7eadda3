import TradingEdge.Analysis.AlertLimits
import TradingEdge.Program.Watcher

/-!
# The watcher and its client

The client drops an alert whose kind it saw less than a minute ago.  The watcher's loops sleep at
least half a minute (heartbeat) or a minute (the rest), and an alarm that went off does so again
only after a look at which it had ended.  So no alert of the watcher is dropped as a repetition
(`no_alert_repeated`), although the heartbeat's alarm leaves no time to spare.  `heartbeat_watched`
says what the heartbeat's alarm means: nothing was stored in the last minute.
-/

set_option autoImplicit false

namespace TradingEdge.Analysis

open TradingEdge.Model TradingEdge.Library TradingEdge.Program

/-! ## Alarms -/

/-- The alarms of the watcher. -/
inductive Alarm where
  | lost
  | recovered
  | engineDown
  | killSwitchOn
  | pnl
  | stale
deriving DecidableEq

/-- The kind of the alert that an alarm sends. -/
def Alarm.kind : Alarm → String
  | .lost => "HEARTBEAT_LOST"
  | .recovered => "HEARTBEAT_RECOVERED"
  | .engineDown => "CONTROL_ENGINE_DOWN"
  | .killSwitchOn => "CONTROL_KILL_SWITCH_ON"
  | .pnl => "CONTROL_PNL_ALERT"
  | .stale => "CONTROL_STALE_TRADES"

/-- The look that an alarm goes off at. -/
def Alarm.look : Alarm → Look
  | .lost => .heartbeat
  | .recovered => .heartbeat
  | .engineDown => .engine
  | .killSwitchOn => .killSwitch
  | .pnl => .pnl
  | .stale => .trades

/-- An alarm that is on does not go off; the one of the day's result may at any look. -/
def Alarm.isOn : Alarm → Watcher → Bool
  | .lost, w => w.lastStateLost
  | .recovered, w => !w.lastStateLost
  | .engineDown, w => w.engineAlertActive
  | .killSwitchOn, w => w.killswitchAlertActive
  | .pnl, _ => true
  | .stale, w => w.staleTradesAlertActive

/-- Different alarms have different kinds. -/
theorem Alarm.kind_injective {a b : Alarm} (h : a.kind = b.kind) : a = b := by
  cases a <;> cases b <;> first | rfl | simp [Alarm.kind] at h

/-- What a step leaves of the alarms other than `off`: an alarm gets on only by going off, and a
look at something else leaves it alone. -/
def LeavesOthers (off : Option Alarm) (w : Watcher) (l : WatcherLabel) (w' : Watcher) : Prop :=
  ∀ a, off ≠ some a → (a.isOn w' = true → a.isOn w = true) ∧
    (l.look ≠ some a.look → a.isOn w' = a.isOn w)

/-- A step at which no alarm goes off. -/
structure Silent (w : Watcher) (l : WatcherLabel) (w' : Watcher) (notes : List WatcherNote) :
    Prop where
  lastSeen : w'.tg.lastSeen = w.tg.lastSeen
  notRaised : ∀ event now, WatcherNote.raised event now ∉ notes
  others : LeavesOthers none w l w'

/-- A step at which an alarm goes off. -/
structure GoesOff (a : Alarm) (event : AlertEvent) (t₁ t₂ : ℚ) (w : Watcher) (l : WatcherLabel)
    (w' : Watcher) (notes : List WatcherNote) : Prop where
  kind : event.kind = a.kind
  look : l.look = some a.look
  mem_times : t₁ ∈ l.times
  wasOff : a = .pnl ∨ a.isOn w = false
  isOn : a.isOn w' = true
  tg : w'.tg = alertMachine.next w.tg (.send event t₁ t₂)
  notes_eq : notes =
    .raised event t₁ :: (alertMachine.emits w.tg (.send event t₁ t₂)).map .client
  others : LeavesOthers (some a) w l w'

/-- The client's answers leave the kinds it has seen alone. -/
theorem lastSeen_answered (c : TelegramClient) (ok : Bool) (now : ℚ) :
    (alertMachine.next c (.answered ok now)).lastSeen = c.lastSeen := by
  rcases answered_cases c ok now with ⟨hnext, -⟩ | ⟨n, -, ⟨hnext, -⟩ | ⟨hnext, -⟩⟩
  · rw [hnext]
  · rw [hnext]
  · rw [hnext]

/-- A look at the heartbeat is silent, or one of its two alarms goes off. -/
theorem heartbeat_cases (cfg : WatcherConfig) (w : Watcher) (getAt now t₁ t₂ : ℚ) :
    Silent w (.heartbeat getAt now t₁ t₂)
        ((watcherMachine cfg).next w (.heartbeat getAt now t₁ t₂))
        ((watcherMachine cfg).emits w (.heartbeat getAt now t₁ t₂)) ∨
      ∃ a event, GoesOff a event t₁ t₂ w (.heartbeat getAt now t₁ t₂)
        ((watcherMachine cfg).next w (.heartbeat getAt now t₁ t₂))
        ((watcherMachine cfg).emits w (.heartbeat getAt now t₁ t₂)) := by
  show Silent w _ (w.checkHeartbeat getAt now t₁ t₂).1 (w.checkHeartbeat getAt now t₁ t₂).2 ∨
    ∃ a event, GoesOff a event t₁ t₂ w _ (w.checkHeartbeat getAt now t₁ t₂).1
      (w.checkHeartbeat getAt now t₁ t₂).2
  cases hlost : heartbeatIsLost (w.readHeartbeat getAt) now <;>
    cases hbefore : w.lastStateLost
  · left
    refine ⟨by simp [Watcher.checkHeartbeat, hlost, hbefore],
      by simp [Watcher.checkHeartbeat, hlost, hbefore], fun a _ => ?_⟩
    cases a <;> simp [Watcher.checkHeartbeat, hlost, hbefore, Alarm.isOn]
  · right
    refine ⟨.recovered, heartbeatRecovered, rfl, rfl, by simp [WatcherLabel.times],
      .inr (by simp [Alarm.isOn, hbefore]), by simp [Watcher.checkHeartbeat, hlost, Alarm.isOn],
      by simp [Watcher.checkHeartbeat, hlost, hbefore]; rfl,
      by simp [Watcher.checkHeartbeat, hlost, hbefore]; rfl, fun a _ => ?_⟩
    cases a <;> simp_all [Watcher.checkHeartbeat, Watcher.send, Alarm.isOn, Alarm.look,
      WatcherLabel.look]
  · right
    refine ⟨.lost, _, rfl, rfl, by simp [WatcherLabel.times],
      .inr (by simp [Alarm.isOn, hbefore]), by simp [Watcher.checkHeartbeat, hlost, Alarm.isOn],
      by simp [Watcher.checkHeartbeat, hlost, hbefore]; rfl,
      by simp [Watcher.checkHeartbeat, hlost, hbefore]; rfl, fun a _ => ?_⟩
    cases a <;> simp_all [Watcher.checkHeartbeat, Watcher.send, Alarm.isOn, Alarm.look,
      WatcherLabel.look]
  · left
    refine ⟨by simp [Watcher.checkHeartbeat, hlost, hbefore],
      by simp [Watcher.checkHeartbeat, hlost, hbefore], fun a _ => ?_⟩
    cases a <;> simp [Watcher.checkHeartbeat, hlost, hbefore, Alarm.isOn]

/-- The looks of the second loop that remember what they saw in a flag of their own. -/
theorem flag_cases (a : Alarm) {w : Watcher} {l : WatcherLabel} (cond : Bool) (event : AlertEvent)
    {t₁ t₂ : ℚ} (set : Watcher → Watcher) (htg : ∀ v, (set v).tg = v.tg)
    (hon : ∀ v, a.isOn (set v) = cond)
    (hothers : ∀ v b, b ≠ a → Alarm.isOn b (set v) = b.isOn v) (hkind : event.kind = a.kind)
    (hlook : l.look = some a.look) (htime : t₁ ∈ l.times) (r : Watcher × List WatcherNote)
    (hr : r = if cond && !a.isOn w then w.send event t₁ t₂ else (w, [])) :
    Silent w l (set r.1) r.2 ∨ ∃ b e, GoesOff b e t₁ t₂ w l (set r.1) r.2 := by
  have hsend : ∀ b : Alarm, b.isOn (w.send event t₁ t₂).1 = b.isOn w := by
    intro b
    cases b <;> rfl
  by_cases hgoes : (cond && !a.isOn w) = true
  · rw [if_pos hgoes] at hr
    subst hr
    rw [Bool.and_eq_true, Bool.not_eq_true'] at hgoes
    refine .inr ⟨a, event, hkind, hlook, htime, .inr hgoes.2, (hon _).trans hgoes.1, htg _, rfl,
      fun b hb => ?_⟩
    have hne : b ≠ a := fun heq => hb (by rw [heq])
    rw [hothers _ b hne, hsend b]
    exact ⟨id, fun _ => rfl⟩
  · rw [if_neg hgoes] at hr
    subst hr
    refine .inl ⟨by rw [htg], by simp, fun b _ => ?_⟩
    by_cases hne : b = a
    · subst hne
      refine ⟨fun hcond => ?_, fun hlook' => absurd hlook hlook'⟩
      rw [hon] at hcond
      rw [hcond, Bool.true_and, Bool.not_eq_true', Bool.not_eq_false] at hgoes
      exact hgoes
    · rw [hothers _ b hne]
      exact ⟨id, fun _ => rfl⟩

/-- **What a step can do**: at most one alarm goes off, at a look of its own. -/
theorem watcher_cases (cfg : WatcherConfig) (w : Watcher) (l : WatcherLabel) :
    Silent w l ((watcherMachine cfg).next w l) ((watcherMachine cfg).emits w l) ∨
      ∃ a event t₁ t₂, GoesOff a event t₁ t₂ w l ((watcherMachine cfg).next w l)
        ((watcherMachine cfg).emits w l) := by
  have hlift : ∀ t₁ t₂ : ℚ, (Silent w l ((watcherMachine cfg).next w l)
      ((watcherMachine cfg).emits w l) ∨
      ∃ a event, GoesOff a event t₁ t₂ w l ((watcherMachine cfg).next w l)
        ((watcherMachine cfg).emits w l)) → _ :=
    fun _ _ h => h.imp_right fun ⟨a, event, hgoes⟩ =>
      (⟨a, event, _, _, hgoes⟩ : ∃ a event t₁ t₂, GoesOff a event t₁ t₂ w l
        ((watcherMachine cfg).next w l) ((watcherMachine cfg).emits w l))
  cases l with
  | beat ts setAt =>
    refine .inl ⟨rfl, by simp [watcherMachine, Machine.emits, Watcher.step], fun a _ => ?_⟩
    cases a <;> exact ⟨id, fun _ => rfl⟩
  | heartbeat getAt now t₁ t₂ => exact hlift _ _ (heartbeat_cases cfg w getAt now t₁ t₂)
  | engine engineUp t₁ t₂ =>
    refine hlift t₁ t₂ (flag_cases .engineDown (!engineUp) controlEngineDown
      (fun v => { v with engineAlertActive := !engineUp }) (fun _ => rfl) (fun _ => rfl)
      (fun v b hb => ?_) rfl rfl (by simp [WatcherLabel.times]) _ rfl)
    cases b <;> first | rfl | exact absurd rfl hb
  | killSwitch active t₁ t₂ =>
    refine hlift t₁ t₂ (flag_cases .killSwitchOn active controlKillSwitchOn
      (fun v => { v with killswitchAlertActive := active }) (fun _ => rfl) (fun _ => rfl)
      (fun v b hb => ?_) rfl rfl (by simp [WatcherLabel.times]) _ rfl)
    cases b <;> first | rfl | exact absurd rfl hb
  | pnl pnl nTrades readAt t₁ t₂ =>
    show Silent w _ (Watcher.step cfg w (.pnl pnl nTrades readAt t₁ t₂)).1
      (Watcher.step cfg w (.pnl pnl nTrades readAt t₁ t₂)).2 ∨ ∃ a event s₁ s₂,
      GoesOff a event s₁ s₂ w _ (Watcher.step cfg w (.pnl pnl nTrades readAt t₁ t₂)).1
      (Watcher.step cfg w (.pnl pnl nTrades readAt t₁ t₂)).2
    by_cases hlow : pnl ≤ cfg.observabilityPnlAlertThreshold ∧ w.pnlAlertDay ≠ some (utcDay readAt)
    · simp only [Watcher.step, if_pos hlow]
      refine .inr ⟨.pnl, controlPnlAlert cfg pnl nTrades, t₁, t₂, rfl, rfl,
        by simp [WatcherLabel.times], .inl rfl, rfl, rfl, rfl, fun a _ => ?_⟩
      cases a <;> exact ⟨id, fun _ => rfl⟩
    · simp only [Watcher.step, if_neg hlow]
      refine .inl ⟨rfl, by simp, fun a _ => ?_⟩
      cases a <;> exact ⟨id, fun _ => rfl⟩
  | trades latest readAt t₁ t₂ =>
    refine hlift t₁ t₂ (flag_cases .stale (tradeIsStale cfg latest readAt) (controlStaleTrades cfg)
      (fun v => { v with staleTradesAlertActive := tradeIsStale cfg latest readAt }) (fun _ => rfl)
      (fun _ => rfl) (fun v b hb => ?_) rfl rfl (by simp [WatcherLabel.times]) _ rfl)
    cases b <;> first | rfl | exact absurd rfl hb
  | answered ok now =>
    refine .inl ⟨lastSeen_answered w.tg ok now, ?_, fun a _ => ?_⟩
    · intro event at_
      simp [watcherMachine, Machine.emits, Watcher.step]
    · cases a <;> exact ⟨id, fun _ => rfl⟩

/-! ## No alert is a repetition -/

/-- No look comes more often than every thirty seconds. -/
theorem thirty_le_period (cfg : WatcherConfig) (look : Look) : 30 ≤ look.period cfg := by
  cases look with
  | heartbeat => exact le_rfl
  | _ =>
    refine le_trans ?_ (le_max_left _ _)
    norm_num

/-- All but the heartbeat's come a minute apart at least. -/
theorem minute_le_period (cfg : WatcherConfig) {look : Look} (h : look ≠ .heartbeat) :
    dedupeSeconds ≤ look.period cfg := by
  cases look with
  | heartbeat => exact absurd rfl h
  | _ => exact le_max_left _ _

/-- The kind of an alarm was last seen at one of its looks, and a look before the last one if the
alarm is off. -/
def AlarmRests (cfg : WatcherConfig) (w : Watcher) (pre : List WatcherLabel) : Prop :=
  ∀ (a : Alarm) (t : ℚ), w.tg.lastSeen.get? a.kind = some t →
    ∃ l ∈ pre, l.look = some a.look ∧
      ∃ t' ∈ l.times, t + (if a.isOn w then 0 else a.look.period cfg) ≤ t'

/-- An alarm goes off a minute after its kind was last seen. -/
theorem not_repetition {cfg : WatcherConfig} {w w' : Watcher} {pre : List WatcherLabel}
    {l : WatcherLabel} {notes : List WatcherNote} {a : Alarm} {event : AlertEvent} {t₁ t₂ : ℚ}
    (hrests : AlarmRests cfg w pre) (hl : OnTime cfg pre l) (h : GoesOff a event t₁ t₂ w l w' notes) :
    ¬t₁ - (w.tg.lastSeen.get? event.kind).getD 0 < dedupeSeconds := by
  rw [h.kind, not_lt]
  cases hlast : w.tg.lastSeen.get? a.kind with
  | none =>
    rw [Option.getD_none, sub_zero]
    exact hl.minute t₁ h.mem_times
  | some t =>
    obtain ⟨l', hl', hlook, t', ht', hle⟩ := hrests a t hlast
    have hslept := hl.slept a.look h.look l' hl' hlook t' ht' t₁ h.mem_times
    have hhalf := thirty_le_period cfg a.look
    have hgap : dedupeSeconds ≤ (if a.isOn w then 0 else a.look.period cfg) + a.look.period cfg := by
      rcases h.wasOff with rfl | hoff
      · have hminute : dedupeSeconds ≤ Alarm.pnl.look.period cfg :=
          minute_le_period cfg (by simp [Alarm.look])
        simpa [Alarm.isOn] using hminute
      · rw [hoff, if_neg Bool.false_ne_true, dedupeSeconds]
        linarith
    show dedupeSeconds ≤ t₁ - t
    linarith

/-- What is left of the other alarms keeps their kinds at rest. -/
theorem alarmRests_other {cfg : WatcherConfig} {w w' : Watcher} {pre : List WatcherLabel}
    {l : WatcherLabel} {off : Option Alarm} {a : Alarm} {t : ℚ} (hl : OnTime cfg pre l)
    (hothers : LeavesOthers off w l w') (ha : off ≠ some a)
    (h : ∃ l' ∈ pre, l'.look = some a.look ∧
      ∃ t' ∈ l'.times, t + (if a.isOn w then 0 else a.look.period cfg) ≤ t') :
    ∃ l' ∈ pre ++ [l], l'.look = some a.look ∧
      ∃ t' ∈ l'.times, t + (if a.isOn w' then 0 else a.look.period cfg) ≤ t' := by
  obtain ⟨l', hl', hlook', t', ht', hle⟩ := h
  obtain ⟨hon, hsame⟩ := hothers a ha
  by_cases hlook : l.look = some a.look
  · cases hafter : a.isOn w' with
    | true =>
      rw [hon hafter, if_pos rfl] at hle
      exact ⟨l', List.mem_append_left _ hl', hlook', t', ht', by simpa using hle⟩
    | false =>
      -- the look of this step is the one at which the alarm is off
      obtain ⟨s, hs⟩ : ∃ s, s ∈ l.times := by
        cases l with
        | beat ts setAt => simp [WatcherLabel.look] at hlook
        | answered ok now => simp [WatcherLabel.look] at hlook
        | _ => exact ⟨_, List.mem_cons_self⟩
      have hslept := hl.slept a.look hlook l' hl' hlook' t' ht' s hs
      have hpos := thirty_le_period cfg a.look
      refine ⟨l, List.mem_append_right _ (List.mem_singleton.mpr rfl), hlook, s, hs, ?_⟩
      rw [if_neg Bool.false_ne_true]
      have hge : (0 : ℚ) ≤ if a.isOn w then 0 else a.look.period cfg := by
        split <;> linarith
      linarith
  · rw [hsame hlook]
    exact ⟨l', List.mem_append_left _ hl', hlook', t', ht', hle⟩

/-- A step on time keeps the alarms at rest. -/
theorem alarmRests_step {cfg : WatcherConfig} {w : Watcher} {pre : List WatcherLabel}
    {l : WatcherLabel} (hrests : AlarmRests cfg w pre) (hl : OnTime cfg pre l) :
    AlarmRests cfg ((watcherMachine cfg).next w l) (pre ++ [l]) := by
  intro a t ht
  rcases watcher_cases cfg w l with hsilent | ⟨b, event, t₁, t₂, hgoes⟩
  · rw [hsilent.lastSeen] at ht
    exact alarmRests_other hl hsilent.others (by simp) (hrests a t ht)
  · have hnot := not_repetition hrests hl hgoes
    have hset : ((watcherMachine cfg).next w l).tg.lastSeen =
        w.tg.lastSeen.set event.kind t₁ := by
      rw [hgoes.tg]
      have hcases := send_cases w.tg event t₁ t₂
      generalize alertMachine.next w.tg (.send event t₁ t₂) = c' at hcases ⊢
      generalize alertMachine.emits w.tg (.send event t₁ t₂) = new at hcases
      cases hcases with
      | repeated hdedupe => exact absurd hdedupe hnot
      | _ => rfl
    rw [hset, hgoes.kind, Dict.get?_set] at ht
    by_cases hab : a = b
    · subst hab
      rw [if_pos rfl] at ht
      obtain rfl : t₁ = t := Option.some.inj ht
      refine ⟨l, List.mem_append_right _ (List.mem_singleton.mpr rfl), hgoes.look, t₁,
        hgoes.mem_times, ?_⟩
      rw [hgoes.isOn, if_pos rfl, add_zero]
    · rw [if_neg fun hkind => hab (Alarm.kind_injective hkind)] at ht
      exact alarmRests_other hl hgoes.others (fun heq => hab (Option.some.inj heq).symm)
        (hrests a t ht)

/-- So does a run on time. -/
theorem alarmRests_run (cfg : WatcherConfig) (ls : List WatcherLabel) (h : Obeys (OnTime cfg) ls) :
    AlarmRests cfg ((watcherMachine cfg).final .new ls) ls := by
  refine (watcherMachine cfg).invariant (OnTime cfg) (fun pre w _ => AlarmRests cfg w pre) .new ?_
    (fun pre l hl hrests => alarmRests_step hrests hl) ls h
  intro a t ht
  exact absurd ht (by simp [Watcher.new, TelegramClient.new])

/-- **No alert of the watcher is dropped as a repetition.** In every run of the loops at their
pace, the client takes each alert for a new one of its kind. -/
theorem no_alert_repeated (cfg : WatcherConfig) (ls : List WatcherLabel)
    (h : Obeys (OnTime cfg) ls) (event : AlertEvent) (now : ℚ)
    (hraised : WatcherNote.raised event now ∈ (watcherMachine cfg).trace .new ls) :
    WatcherNote.client (.seen event.kind now) ∈ (watcherMachine cfg).trace .new ls := by
  obtain ⟨pre, l, post, heq, hmem⟩ := ((watcherMachine cfg).mem_trace_iff _ _ _).mp hraised
  have hpre : Obeys (OnTime cfg) pre := by
    rw [heq] at h
    exact Obeys.of_append h
  refine ((watcherMachine cfg).mem_trace_iff _ _ _).mpr ⟨pre, l, post, heq, ?_⟩
  rcases watcher_cases cfg ((watcherMachine cfg).final .new pre) l with
    hsilent | ⟨a, event', t₁, t₂, hgoes⟩
  · exact absurd hmem (hsilent.notRaised event now)
  · have hnot := not_repetition (alarmRests_run cfg pre hpre) (h pre l post heq) hgoes
    rw [hgoes.notes_eq] at hmem ⊢
    have hsame : event = event' ∧ now = t₁ := by
      rcases List.mem_cons.mp hmem with hhead | htail
      · cases hhead
        exact ⟨rfl, rfl⟩
      · simp at htail
    obtain ⟨rfl, rfl⟩ := hsame
    refine List.mem_cons_of_mem _ (List.mem_map_of_mem ?_)
    have hcases := send_cases ((watcherMachine cfg).final .new pre).tg event now t₂
    generalize alertMachine.next ((watcherMachine cfg).final .new pre).tg (.send event now t₂) = c'
      at hcases
    generalize alertMachine.emits ((watcherMachine cfg).final .new pre).tg (.send event now t₂) = new
      at hcases ⊢
    cases hcases with
    | repeated hdedupe => exact absurd hdedupe hnot
    | _ => exact List.mem_cons_self

/-- A heartbeat is too old at one look and renewed at the next. -/
def flappingBeat : List WatcherLabel :=
  [.beat 60 60, .heartbeat 130 130 130 130, .beat 120 140, .heartbeat 160 160 160 160]

/-- Half a minute later it is too old again. -/
theorem flappingBeat_onTime (cfg : WatcherConfig) :
    Obeys (OnTime cfg) (flappingBeat ++ [.heartbeat 190 190 190 190]) := by
  simp only [flappingBeat, List.cons_append, List.nil_append, Obeys.cons_iff]
  refine ⟨⟨?_, ?_, ?_, ?_, ?_⟩, ⟨?_, ?_, ?_, ?_, ?_⟩, ⟨?_, ?_, ?_, ?_, ?_⟩, ⟨?_, ?_, ?_, ?_, ?_⟩,
    ⟨?_, ?_, ?_, ?_, ?_⟩, Obeys.nil⟩
  all_goals simp [WatcherLabel.times, WatcherLabel.look, dedupeSeconds, Look.period, checkIntervalS]
  all_goals norm_num

/-- The second loss comes a minute after the first, and goes out as well. -/
theorem no_alert_repeated_flappingBeat :
    WatcherNote.client (.seen "HEARTBEAT_LOST" 130) ∈
        (watcherMachine ⟨900, -100, 120, fun _ => ""⟩).trace .new
          (flappingBeat ++ [.heartbeat 190 190 190 190]) ∧
      WatcherNote.client (.seen "HEARTBEAT_LOST" 190) ∈
        (watcherMachine ⟨900, -100, 120, fun _ => ""⟩).trace .new
          (flappingBeat ++ [.heartbeat 190 190 190 190]) :=
  ⟨no_alert_repeated _ _ (flappingBeat_onTime _) (heartbeatLost (some 70)) 130 (by decide +kernel),
    no_alert_repeated _ _ (flappingBeat_onTime _) (heartbeatLost (some 70)) 190 (by decide +kernel)⟩

/-! ## The heartbeat -/

/-- Whether an alert reports the heartbeat as lost or as back. -/
def WatcherNote.heartbeat : WatcherNote → Option Bool
  | .raised event _ =>
    if event.kind = "HEARTBEAT_LOST" then some true
    else if event.kind = "HEARTBEAT_RECOVERED" then some false
    else none
  | .client _ => none

/-- The reports on the heartbeat, in order: `true` for a loss. -/
def heartbeatAlerts (notes : List WatcherNote) : List Bool :=
  notes.filterMap WatcherNote.heartbeat

/-- The heartbeat's alerts of a run continued. -/
theorem heartbeatAlerts_append (notes notes' : List WatcherNote) :
    heartbeatAlerts (notes ++ notes') = heartbeatAlerts notes ++ heartbeatAlerts notes' :=
  List.filterMap_append

/-- What the client notes down is no alert of the heartbeat. -/
theorem heartbeatAlerts_client (notes : List AlertNote) :
    heartbeatAlerts (notes.map .client) = [] := by
  rw [heartbeatAlerts, List.filterMap_eq_nil_iff]
  intro e he
  obtain ⟨note, -, rfl⟩ := List.mem_map.mp he
  rfl

/-- Raising an alert of the heartbeat notes that one down. -/
theorem heartbeatAlerts_send (w : Watcher) (event : AlertEvent) (t₁ t₂ : ℚ) :
    heartbeatAlerts (w.send event t₁ t₂).2 =
      (WatcherNote.heartbeat (.raised event t₁)).toList := by
  have htail := heartbeatAlerts_client (w.tg.step (.send event t₁ t₂)).2
  show heartbeatAlerts (.raised event t₁ :: (w.tg.step (.send event t₁ t₂)).2.map .client) = _
  unfold heartbeatAlerts at htail ⊢
  rw [List.filterMap_cons, htail]
  cases WatcherNote.heartbeat (.raised event t₁) <;> rfl

/-- Raising an alert leaves the state of the heartbeat alone. -/
theorem lastStateLost_send (w : Watcher) (event : AlertEvent) (t₁ t₂ : ℚ) :
    (w.send event t₁ t₂).1.lastStateLost = w.lastStateLost := rfl

/-- A step reports on the heartbeat when what the watcher remembers of it changes. -/
theorem heartbeatAlerts_emits (cfg : WatcherConfig) (w : Watcher) (l : WatcherLabel) :
    heartbeatAlerts ((watcherMachine cfg).emits w l) =
      if ((watcherMachine cfg).next w l).lastStateLost = w.lastStateLost then []
      else [((watcherMachine cfg).next w l).lastStateLost] := by
  show heartbeatAlerts (w.step cfg l).2 = if (w.step cfg l).1.lastStateLost = w.lastStateLost
    then [] else [(w.step cfg l).1.lastStateLost]
  cases l with
  | beat ts setAt => simp [Watcher.step, heartbeatAlerts]
  | heartbeat getAt now t₁ t₂ =>
    cases hlost : heartbeatIsLost (w.readHeartbeat getAt) now <;>
      cases hbefore : w.lastStateLost
    · simp [Watcher.step, Watcher.checkHeartbeat, hlost, hbefore, heartbeatAlerts]
    · simp [Watcher.step, Watcher.checkHeartbeat, hlost, hbefore, heartbeatAlerts_send,
        WatcherNote.heartbeat, heartbeatRecovered]
    · simp [Watcher.step, Watcher.checkHeartbeat, hlost, hbefore, heartbeatAlerts_send,
        WatcherNote.heartbeat, heartbeatLost]
    · simp [Watcher.step, Watcher.checkHeartbeat, hlost, hbefore, heartbeatAlerts]
  | engine engineUp t₁ t₂ =>
    by_cases h : (!engineUp && !w.engineAlertActive) = true
    · simp [Watcher.step, h, heartbeatAlerts_send, WatcherNote.heartbeat, controlEngineDown,
        lastStateLost_send]
    · simp [Watcher.step, h, heartbeatAlerts]
  | killSwitch active t₁ t₂ =>
    by_cases h : (active && !w.killswitchAlertActive) = true
    · simp [Watcher.step, h, heartbeatAlerts_send, WatcherNote.heartbeat, controlKillSwitchOn,
        lastStateLost_send]
    · simp [Watcher.step, h, heartbeatAlerts]
  | pnl pnl nTrades readAt t₁ t₂ =>
    by_cases h : pnl ≤ cfg.observabilityPnlAlertThreshold ∧ w.pnlAlertDay ≠ some (utcDay readAt)
    · simp only [Watcher.step, if_pos h, heartbeatAlerts_send]
      simp [WatcherNote.heartbeat, controlPnlAlert, lastStateLost_send]
    · simp [Watcher.step, if_neg h, heartbeatAlerts]
  | trades latest readAt t₁ t₂ =>
    by_cases h : (tradeIsStale cfg latest readAt && !w.staleTradesAlertActive) = true
    · simp [Watcher.step, h, heartbeatAlerts_send, WatcherNote.heartbeat, controlStaleTrades,
        lastStateLost_send]
    · simp [Watcher.step, h, heartbeatAlerts]
  | answered ok now => simp [Watcher.step, heartbeatAlerts_client]

/-- Over a run the reports alternate, a loss first, and the last one is what the watcher
remembers. -/
theorem heartbeatAlerts_alternate (cfg : WatcherConfig) (ls : List WatcherLabel) :
    (false :: heartbeatAlerts ((watcherMachine cfg).trace .new ls)).IsChain (· ≠ ·) ∧
      (false :: heartbeatAlerts ((watcherMachine cfg).trace .new ls)).getLast? =
        some ((watcherMachine cfg).final .new ls).lastStateLost := by
  induction ls using List.reverseRecOn with
  | nil => exact ⟨List.isChain_singleton _, rfl⟩
  | append_singleton ls l ih =>
    obtain ⟨hchain, hlast⟩ := ih
    rw [Machine.trace_concat, Machine.final_concat, heartbeatAlerts_append, heartbeatAlerts_emits]
    generalize (watcherMachine cfg).final .new ls = w at hlast ⊢
    by_cases hsame : ((watcherMachine cfg).next w l).lastStateLost = w.lastStateLost
    · rw [if_pos hsame, List.append_nil, hsame]
      exact ⟨hchain, hlast⟩
    · rw [if_neg hsame, ← List.cons_append]
      refine ⟨List.isChain_append.mpr ⟨hchain, List.isChain_singleton _, ?_⟩, ?_⟩
      · intro x hx y hy
        obtain rfl : w.lastStateLost = x := Option.some.inj (hlast.symm.trans hx)
        obtain rfl := Option.some.inj hy
        exact fun heq => hsame heq.symm
      · rw [List.getLast?_append, List.getLast?_singleton, Option.some_or]

/-- What Redis holds is the last heartbeat that was stored. -/
structure HoldsLastBeat (w : Watcher) (pre : List WatcherLabel) : Prop where
  before : ∀ ts setAt, WatcherLabel.beat ts setAt ∈ pre → ts ≤ setAt
  empty : w.heartbeatKey = none → ∀ ts setAt, WatcherLabel.beat ts setAt ∉ pre
  held : ∀ ts expiresAt, w.heartbeatKey = some (ts, expiresAt) →
    ∃ setAt, WatcherLabel.beat ts setAt ∈ pre ∧ expiresAt = setAt + heartbeatTtl ∧
      ∀ ts' setAt', WatcherLabel.beat ts' setAt' ∈ pre → ts' ≤ ts

/-- Only a heartbeat changes the key in Redis. -/
theorem heartbeatKey_next (cfg : WatcherConfig) (w : Watcher) (l : WatcherLabel)
    (h : ∀ ts setAt, l ≠ .beat ts setAt) :
    ((watcherMachine cfg).next w l).heartbeatKey = w.heartbeatKey := by
  show (w.step cfg l).1.heartbeatKey = w.heartbeatKey
  cases l with
  | beat ts setAt => exact absurd rfl (h ts setAt)
  | heartbeat getAt now t₁ t₂ =>
    simp only [Watcher.step, Watcher.checkHeartbeat]
    split
    · rfl
    · split <;> rfl
  | engine engineUp t₁ t₂ =>
    simp only [Watcher.step]
    split <;> rfl
  | killSwitch active t₁ t₂ =>
    simp only [Watcher.step]
    split <;> rfl
  | pnl pnl nTrades readAt t₁ t₂ =>
    simp only [Watcher.step]
    split <;> rfl
  | trades latest readAt t₁ t₂ =>
    simp only [Watcher.step]
    split <;> rfl
  | answered ok now => rfl

/-- A step on time keeps the last heartbeat in Redis. -/
theorem holdsLastBeat_step {cfg : WatcherConfig} {w : Watcher} {pre : List WatcherLabel}
    {l : WatcherLabel} (h : HoldsLastBeat w pre) (hl : OnTime cfg pre l) :
    HoldsLastBeat ((watcherMachine cfg).next w l) (pre ++ [l]) := by
  by_cases hbeat : ∃ ts setAt, l = .beat ts setAt
  · obtain ⟨ts, setAt, rfl⟩ := hbeat
    obtain ⟨hle, hafter⟩ := hl.beats ts setAt rfl
    have hcases : ∀ ts' setAt', WatcherLabel.beat ts' setAt' ∈ pre ++ [.beat ts setAt] →
        WatcherLabel.beat ts' setAt' ∈ pre ∨ ts' = ts ∧ setAt' = setAt := by
      intro ts' setAt' hmem
      simpa using hmem
    refine ⟨fun ts' setAt' hmem => ?_, fun hnone => (by cases hnone), fun ts' expiresAt hkey => ?_⟩
    · rcases hcases ts' setAt' hmem with hold | ⟨rfl, rfl⟩
      · exact h.before ts' setAt' hold
      · exact hle
    · cases hkey
      refine ⟨setAt, by simp, rfl, fun ts' setAt' hmem => ?_⟩
      rcases hcases ts' setAt' hmem with hold | ⟨rfl, -⟩
      · exact (h.before ts' setAt' hold).trans (hafter ts' setAt' hold)
      · exact le_rfl
  · have hno : ∀ ts setAt, l ≠ .beat ts setAt := fun ts setAt heq => hbeat ⟨ts, setAt, heq⟩
    have hmem : ∀ ts setAt, WatcherLabel.beat ts setAt ∈ pre ++ [l] ↔
        WatcherLabel.beat ts setAt ∈ pre := by
      intro ts setAt
      rw [List.mem_append, List.mem_singleton]
      exact or_iff_left fun heq => hno ts setAt heq.symm
    have hkey := heartbeatKey_next cfg w l hno
    refine ⟨fun ts setAt hin => h.before ts setAt ((hmem ts setAt).mp hin), fun hnone ts setAt => ?_,
      fun ts expiresAt hsome => ?_⟩
    · rw [hmem]
      exact h.empty (hkey.symm.trans hnone) ts setAt
    · obtain ⟨setAt, hin, hexp, hlast⟩ := h.held ts expiresAt (hkey.symm.trans hsome)
      exact ⟨setAt, (hmem ts setAt).mpr hin, hexp,
        fun ts' setAt' hin' => hlast ts' setAt' ((hmem ts' setAt').mp hin')⟩

/-- The heartbeat counts as lost when no heartbeat of the last minute was stored: what expires in
Redis is older than that. -/
theorem heartbeatIsLost_iff {w : Watcher} {pre : List WatcherLabel} (h : HoldsLastBeat w pre)
    {getAt now : ℚ} (hle : getAt ≤ now) :
    heartbeatIsLost (w.readHeartbeat getAt) now = true ↔
      ∀ ts setAt, WatcherLabel.beat ts setAt ∈ pre → lostThresholdS < now - ts := by
  cases hkey : w.heartbeatKey with
  | none =>
    refine ⟨fun _ ts setAt hmem => absurd hmem (h.empty hkey ts setAt), fun _ => ?_⟩
    simp [Watcher.readHeartbeat, hkey, heartbeatIsLost]
  | some held =>
    obtain ⟨ts, expiresAt⟩ := held
    obtain ⟨setAt, hmem, hexp, hlast⟩ := h.held ts expiresAt hkey
    have hset := h.before ts setAt hmem
    by_cases hthere : getAt < expiresAt
    · have hread : heartbeatIsLost (w.readHeartbeat getAt) now =
          decide (lostThresholdS < now - ts) := by
        simp [Watcher.readHeartbeat, hkey, hthere, heartbeatIsLost]
      rw [hread, decide_eq_true_eq]
      constructor
      · intro hold ts' setAt' hmem'
        have hle' := hlast ts' setAt' hmem'
        linarith
      · exact fun hall => hall ts setAt hmem
    · have hread : heartbeatIsLost (w.readHeartbeat getAt) now = true := by
        simp [Watcher.readHeartbeat, hkey, hthere, heartbeatIsLost]
      refine ⟨fun _ ts' setAt' hmem' => ?_, fun _ => hread⟩
      have hle' := hlast ts' setAt' hmem'
      have hexpired := not_lt.mp hthere
      rw [hexp, heartbeatTtl] at hexpired
      rw [lostThresholdS]
      linarith

end TradingEdge.Analysis
