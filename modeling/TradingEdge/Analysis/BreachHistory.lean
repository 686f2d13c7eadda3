import TradingEdge.Library.SlidingWindow
import TradingEdge.Program.SafetyCalls

/-!
# What the breach machine remembers

The guard keeps three deques a market and cuts them at every record: the cancels and the fills of
the last minutes, and the breaches of the kill window.  The first two are compared when a cancel
is filed, the third says whether a breach has been recorded within the minute and whether there
have been enough to kill the market.

`Remembers` is what the state of a market has to do with the history of its calls.  Between two
records the deques hold more than is recent, but they agree with the history on what is
(`recentCancels` and the like), and a timer that has run out agrees with none.  From it follow
the exact laws of the machine over every sequence of calls (`breach_machine_exact`).
-/

set_option autoImplicit false

namespace TradingEdge.Analysis

open TradingEdge.Library TradingEdge.Program

variable {K : Type} [Field K] [LinearOrder K]

/-! ## Histories -/

/-- The times of the calls of a method for a market. -/
def callTimes (method : GuardMethod) (slug : String) (ls : List (GuardCall K)) : List K :=
  (ls.filter fun c => c.method = method ∧ c.slug = slug).map GuardCall.now

/-- The times of the breaches recorded for a market. -/
def breachTimes (slug : String) (es : List (GuardEvent K)) : List K :=
  es.filterMap fun e =>
    match e with
    | .breach alert => if alert.marketSlug = slug then some alert.ts else none
    | .answer _ => none

/-- No call is made before the ones that came earlier. -/
def ClockForward (pre : List (GuardCall K)) (c : GuardCall K) : Prop := ∀ c' ∈ pre, c'.now ≤ c.now

/-- The window of the cancels and the fills. -/
def ratioSpan (params : MMSafetyParams K) : K := (params.cancelFillWindowMinutes : K) * 60

/-- The window in which breaches count. -/
def killSpan (params : MMSafetyParams K) : K := (params.cancelFillKillWindowMin : K) * 60

/-- How long a market stays killed. -/
def resumeSpan (params : MMSafetyParams K) : K := (params.cancelFillResumeMin : K) * 60

/-- Some breach within the resume time before `t` was the last of at least as many within the kill
window as the threshold asks for. -/
def KilledByBreach (params : MMSafetyParams K) (breaches : List K) (t : K) : Prop :=
  ∃ earlier b later, breaches = earlier ++ b :: later ∧ b ≤ t ∧ t < b + resumeSpan params ∧
    params.cancelFillKillThreshold ≤ (recent (killSpan params) b (earlier ++ [b])).length

omit [Field K] [LinearOrder K] in
/-- The times of a method after one more call. -/
theorem callTimes_concat (method : GuardMethod) (slug : String) (pre : List (GuardCall K))
    (c : GuardCall K) :
    callTimes method slug (pre ++ [c]) =
      callTimes method slug pre ++ if c.method = method ∧ c.slug = slug then [c.now] else [] := by
  unfold callTimes
  rw [List.filter_append, List.map_append, List.filter_singleton]
  by_cases h : c.method = method ∧ c.slug = slug
  · rw [decide_eq_true h, if_pos h]
    rfl
  · rw [decide_eq_false h, if_neg h]
    rfl

omit [Field K] [LinearOrder K] in
/-- The breaches of a run continued. -/
theorem breachTimes_append (slug : String) (es es' : List (GuardEvent K)) :
    breachTimes slug (es ++ es') = breachTimes slug es ++ breachTimes slug es' :=
  List.filterMap_append

/-- A history that ends in a breach kills by what came before it, or by that breach. -/
theorem killedByBreach_concat (params : MMSafetyParams K) (breaches : List K) (now t : K) :
    KilledByBreach params (breaches ++ [now]) t ↔
      KilledByBreach params breaches t ∨ now ≤ t ∧ t < now + resumeSpan params ∧
        params.cancelFillKillThreshold ≤
          (recent (killSpan params) now (breaches ++ [now])).length := by
  constructor
  · rintro ⟨earlier, b, later, heq, hkills⟩
    rcases List.eq_nil_or_concat later with rfl | ⟨later, last, rfl⟩
    · obtain ⟨rfl, rfl⟩ := List.append_singleton_inj.mp heq
      exact Or.inr hkills
    · rw [List.concat_eq_append, ← List.cons_append, ← List.append_assoc] at heq
      obtain ⟨rfl, -⟩ := List.append_singleton_inj.mp heq
      exact Or.inl ⟨earlier, b, later, rfl, hkills⟩
  · rintro (⟨earlier, b, later, rfl, hkills⟩ | hkills)
    · exact ⟨earlier, b, later ++ [now], by simp, hkills⟩
    · exact ⟨breaches, now, [], rfl, hkills⟩

/-! ## One market -/

/-- What the state of a market has to do with the times of its cancels, its fills and its
breaches, as far as it can be seen at the times that satisfy `After`. -/
structure Remembers (params : MMSafetyParams K) (cancels fills breaches : List K)
    (After : K → Prop) (st : MarketMMState K) : Prop where
  cancels_sub : st.cancels.Sublist cancels
  fills_sub : st.fills.Sublist fills
  breaches_sub : st.breachEvents.Sublist breaches
  recentCancels : ∀ t, After t →
    recent (ratioSpan params) t st.cancels = recent (ratioSpan params) t cancels
  recentFills : ∀ t, After t →
    recent (ratioSpan params) t st.fills = recent (ratioSpan params) t fills
  recentBreaches : ∀ t, After t →
    recent (killSpan params) t st.breachEvents = recent (killSpan params) t breaches
  spaced : breaches.Pairwise fun b b' => b + 60 ≤ b'
  past : ∀ t, After t → ∀ b ∈ breaches, b ≤ t
  killed : ∀ t, After t → ((∃ k ∈ st.killedUntil, t < k) ↔
    params.autoKillOnBreach = true ∧ KilledByBreach params breaches t)

/-- Nothing has happened, and nothing is remembered. -/
theorem remembers_init (params : MMSafetyParams K) (After : K → Prop) :
    Remembers params [] [] [] After MarketMMState.init where
  cancels_sub := List.Sublist.refl []
  fills_sub := List.Sublist.refl []
  breaches_sub := List.Sublist.refl []
  recentCancels _ _ := rfl
  recentFills _ _ := rfl
  recentBreaches _ _ := rfl
  spaced := List.Pairwise.nil
  past _ _ b hb := absurd hb List.not_mem_nil
  killed t _ := by
    constructor
    · rintro ⟨k, hk, -⟩
      cases hk
    · rintro ⟨-, earlier, b, later, heq, -⟩
      simp at heq

/-- As time goes on it says less. -/
theorem Remembers.later {params : MMSafetyParams K} {cancels fills breaches : List K}
    {After After' : K → Prop} {st : MarketMMState K}
    (h : Remembers params cancels fills breaches After st) (hafter : ∀ t, After' t → After t) :
    Remembers params cancels fills breaches After' st where
  cancels_sub := h.cancels_sub
  fills_sub := h.fills_sub
  breaches_sub := h.breaches_sub
  recentCancels t ht := h.recentCancels t (hafter t ht)
  recentFills t ht := h.recentFills t (hafter t ht)
  recentBreaches t ht := h.recentBreaches t (hafter t ht)
  spaced := h.spaced
  past t ht := h.past t (hafter t ht)
  killed t ht := h.killed t (hafter t ht)

section Records

variable [IsStrictOrderedRing K] {params : MMSafetyParams K} {cancels fills breaches : List K}
  {After : K → Prop} {st st' : MarketMMState K} {now : K}

/-- The breaches are in order. -/
theorem Remembers.sorted_breaches (h : Remembers params cancels fills breaches After st) :
    breaches.Pairwise (· ≤ ·) :=
  h.spaced.imp fun {b b'} hle => by linarith

/-- **A record.** With what is new put in and what is out of date cut off, the deques hold exactly
what is recent.
SOURCE: engine/mm_safety.py:141-149 -/
theorem Remembers.filed (h : Remembers params cancels fills breaches After st) (hnow : After now)
    {newCancels newFills : List K} (hcancelOrder : (cancels ++ newCancels).Pairwise (· ≤ ·))
    (hfillOrder : (fills ++ newFills).Pairwise (· ≤ ·))
    (hst' : st' = { st with cancels := st.cancels ++ newCancels
                            fills := st.fills ++ newFills }.gcWindow params now) :
    st'.cancels = recent (ratioSpan params) now (cancels ++ newCancels) ∧
      st'.fills = recent (ratioSpan params) now (fills ++ newFills) ∧
      st'.breachEvents = recent (killSpan params) now breaches ∧
      Remembers params (cancels ++ newCancels) (fills ++ newFills) breaches
        (fun t => After t ∧ now ≤ t) st' := by
  have hcancels : st'.cancels = recent (ratioSpan params) now (cancels ++ newCancels) := by
    rw [hst']
    exact dropWhile_append_eq_recent h.cancels_sub (h.recentCancels now hnow) hcancelOrder
  have hfills : st'.fills = recent (ratioSpan params) now (fills ++ newFills) := by
    rw [hst']
    exact dropWhile_append_eq_recent h.fills_sub (h.recentFills now hnow) hfillOrder
  have hbreaches : st'.breachEvents = recent (killSpan params) now breaches := by
    rw [← h.recentBreaches now hnow, hst']
    exact dropWhile_eq_recent (h.sorted_breaches.sublist h.breaches_sub)
  have hkilled : st'.killedUntil = st.killedUntil := by
    rw [hst']
    rfl
  refine ⟨hcancels, hfills, hbreaches, ?_, ?_, ?_, ?_, ?_, ?_, h.spaced, ?_, ?_⟩
  · rw [hcancels]
    exact recent_sublist _ _ _
  · rw [hfills]
    exact recent_sublist _ _ _
  · rw [hbreaches]
    exact recent_sublist _ _ _
  · rintro t ⟨-, hle⟩
    rw [hcancels, recent_recent hle]
  · rintro t ⟨-, hle⟩
    rw [hfills, recent_recent hle]
  · rintro t ⟨-, hle⟩
    rw [hbreaches, recent_recent hle]
  · exact fun t ht => h.past t ht.1
  · intro t ht
    rw [hkilled]
    exact h.killed t ht.1

/-- **When a breach is recorded.** The ratio exceeds the maximum, and no breach has been recorded
within the minute.  The deque of the breaches shows that, as it is cut at a minute or more.
SOURCE: engine/mm_safety.py:151-161 -/
theorem breachAlert_isSome_iff (slug : String)
    (hbreaches : st.breachEvents = recent (killSpan params) now breaches)
    (horder : breaches.Pairwise (· ≤ ·)) (hminute : 60 ≤ killSpan params) :
    (st.breachAlert params slug now).isSome ↔
      params.cancelFillRatioMax < st.cancelFillRatio ∧ ∀ b ∈ breaches, 60 ≤ now - b := by
  have hlast : ((st.breachEvents.getLast?).any fun last => now - last < 60) = true ↔
      ∃ b ∈ breaches, now - b < 60 := by
    have hsorted : st.breachEvents.Pairwise fun a b =>
        decide (now - a < 60) = true → decide (now - b < 60) = true := by
      rw [hbreaches]
      refine (horder.sublist (recent_sublist _ _ _)).imp ?_
      intro a b hle hwithin
      have hnear := of_decide_eq_true hwithin
      exact decide_eq_true (by linarith)
    rw [any_getLast?_iff _ hsorted, hbreaches]
    constructor
    · rintro ⟨b, hrecent, hwithin⟩
      exact ⟨b, (mem_recent.mp hrecent).1, of_decide_eq_true hwithin⟩
    · rintro ⟨b, hb, hwithin⟩
      exact ⟨b, mem_recent.mpr ⟨hb, by linarith⟩, decide_eq_true hwithin⟩
  unfold MarketMMState.breachAlert
  split
  · rename_i hratio
    simp [not_lt.mpr hratio]
  · rename_i hratio
    split
    · rename_i hany
      obtain ⟨b, hb, hwithin⟩ := hlast.mp hany
      constructor
      · intro hsome
        cases hsome
      · rintro ⟨-, hall⟩
        exact absurd (hall b hb) (not_le.mpr hwithin)
    · rename_i hany
      refine iff_of_true rfl ⟨not_le.mp hratio, ?_⟩
      intro b hb
      by_contra hwithin
      exact hany (hlast.mpr ⟨b, hb, not_le.mp hwithin⟩)

/-- **A breach.** It is a minute after the others, and kills the market if there are enough.
SOURCE: engine/mm_safety.py:159-174 -/
theorem Remembers.breached (h : Remembers params cancels fills breaches After st)
    (hbreaches : st.breachEvents = recent (killSpan params) now breaches)
    (hminute : 60 ≤ killSpan params) (hnow : After now) (hafter : ∀ t, After t → now ≤ t)
    {slug : String} {alert : BreachAlert K}
    (halert : st.breachAlert params slug now = some alert) :
    Remembers params cancels fills (breaches ++ [now]) After (st.maybeBreach params now) := by
  have hspaced : ∀ b ∈ breaches, 60 ≤ now - b :=
    ((breachAlert_isSome_iff slug hbreaches h.sorted_breaches hminute).mp (by simp [halert])).2
  have hself : recent (killSpan params) now [now] = [now] :=
    recent_singleton (le_trans (by norm_num) hminute) now
  have hcount : alert.nBreachesInWindow =
      (recent (killSpan params) now (breaches ++ [now])).length := by
    have hn : alert.nBreachesInWindow = (st.breachEvents ++ [now]).length := by
      unfold MarketMMState.breachAlert at halert
      split at halert
      · cases halert
      · split at halert
        · cases halert
        · rw [← Option.some.inj halert]
    rw [hn, recent_append, hself, hbreaches]
  rw [MarketMMState.maybeBreach_eq params slug, halert]
  dsimp only
  refine ⟨h.cancels_sub, h.fills_sub, ?_, h.recentCancels, h.recentFills, ?_, ?_, ?_, ?_⟩
  · exact h.breaches_sub.append (List.Sublist.refl _)
  · intro t ht
    rw [recent_append, recent_append, h.recentBreaches t ht]
  · rw [List.pairwise_append]
    refine ⟨h.spaced, List.pairwise_singleton _ _, ?_⟩
    intro b hb b' hb'
    rw [List.mem_singleton.mp hb']
    linarith [hspaced b hb]
  · intro t ht b hb
    rcases List.mem_append.mp hb with hold | hnew
    · exact h.past t ht b hold
    · rw [List.mem_singleton.mp hnew]
      exact hafter t ht
  · intro t ht
    rw [killedByBreach_concat, ← hcount]
    by_cases hkills : params.cancelFillKillThreshold ≤ alert.nBreachesInWindow ∧
        params.autoKillOnBreach = true
    · rw [if_pos hkills]
      constructor
      · rintro ⟨k, hk, hlt⟩
        rw [← Option.mem_some_iff.mp hk] at hlt
        exact ⟨hkills.2, Or.inr ⟨hafter t ht, hlt, hkills.1⟩⟩
      · rintro ⟨-, ⟨earlier, b, later, heq, -, hlt, -⟩ | ⟨-, hlt, -⟩⟩
        · -- the timer of an earlier breach runs out before the new one
          have hb : b ≤ now := h.past now hnow b (by rw [heq]; simp)
          exact ⟨_, Option.mem_some_self _, lt_of_lt_of_le hlt (add_le_add_left hb _)⟩
        · exact ⟨_, Option.mem_some_self _, hlt⟩
    · rw [if_neg hkills, h.killed t ht]
      refine and_congr_right fun hauto => ?_
      constructor
      · exact Or.inl
      · rintro (hold | ⟨-, -, hthreshold⟩)
        · exact hold
        · exact absurd ⟨hthreshold, hauto⟩ hkills

end Records

/-! ## All markets, over a run -/

section Runs

variable (params : MMSafetyParams K)

omit [Field K] in
/-- The calls of an ordered run are made in the order of their times. -/
theorem pairwise_now {ls : List (GuardCall K)} (h : Obeys ClockForward ls) :
    (ls.map GuardCall.now).Pairwise (· ≤ ·) := by
  induction ls using List.reverseRecOn with
  | nil => exact List.Pairwise.nil
  | append_singleton pre c ih =>
    obtain ⟨hpre, hc⟩ := (Obeys.concat_iff pre c).mp h
    rw [List.map_append, List.pairwise_append]
    refine ⟨ih hpre, List.pairwise_singleton _ _, ?_⟩
    intro t ht t' ht'
    obtain ⟨c', hc', rfl⟩ := List.mem_map.mp ht
    rw [List.mem_singleton.mp ht']
    exact hc c' hc'

omit [Field K] in
/-- On a clock that does not go back the calls are in order. -/
theorem callTimes_sorted (method : GuardMethod) (slug : String) {ls : List (GuardCall K)}
    (h : Obeys ClockForward ls) : (callTimes method slug ls).Pairwise (· ≤ ·) :=
  (pairwise_now h).sublist (List.filter_sublist.map _)

/-- An alert is about its own call.
SOURCE: engine/mm_safety.py:162-170 -/
theorem breachAlert_eq_some {st : MarketMMState K} {slug : String} {now : K}
    {alert : BreachAlert K} (h : st.breachAlert params slug now = some alert) :
    alert.ts = now ∧ alert.marketSlug = slug := by
  unfold MarketMMState.breachAlert at h
  split at h
  · cases h
  · split at h
    · cases h
    · rw [← Option.some.inj h]
      exact ⟨rfl, rfl⟩

/-- Only a cancel can add to the breaches, and to those of its market.
SOURCE: engine/mm_safety.py:118-139 -/
theorem breachTimes_emits (g : MMSafetyGuard K) (c : GuardCall K) (slug : String) :
    breachTimes slug ((guardMachine params).emits g c) =
      if c.method = .recordCancel ∧ c.slug = slug ∧
          (((g.market slug).fileCancel params c.now).breachAlert params slug c.now).isSome then
        [c.now]
      else [] := by
  unfold guardMachine Machine.emits
  dsimp only
  cases hmethod : c.method with
  | recordCancel =>
    dsimp only
    cases halert : ((g.market c.slug).fileCancel params c.now).breachAlert params c.slug c.now with
    | none =>
      rw [if_neg]
      · rfl
      · rintro ⟨-, rfl, hsome⟩
        rw [halert] at hsome
        cases hsome
    | some alert =>
      obtain ⟨hts, hslug⟩ := breachAlert_eq_some params halert
      by_cases h : c.slug = slug
      · subst h
        simp [breachTimes, halert, hts, hslug]
      · simp [breachTimes, hslug, h]
  | recordFill => simp [breachTimes]
  | isMarketKilled => simp [breachTimes]

variable [IsStrictOrderedRing K]

omit [IsStrictOrderedRing K] in
/-- A market whose timer has been taken back remembers as much, if the timer had run out.
SOURCE: engine/mm_safety.py:135-137 -/
theorem Remembers.timer_off {params : MMSafetyParams K} {cancels fills breaches : List K}
    {After : K → Prop} {st : MarketMMState K}
    (h : Remembers params cancels fills breaches After st)
    (hout : ∃ k ∈ st.killedUntil, ∀ t, After t → k ≤ t) :
    Remembers params cancels fills breaches After { st with killedUntil := none } where
  cancels_sub := h.cancels_sub
  fills_sub := h.fills_sub
  breaches_sub := h.breaches_sub
  recentCancels := h.recentCancels
  recentFills := h.recentFills
  recentBreaches := h.recentBreaches
  spaced := h.spaced
  past := h.past
  killed t ht := by
    obtain ⟨k, hk, hle⟩ := hout
    rw [← h.killed t ht]
    constructor
    · rintro ⟨k', hk', -⟩
      cases hk'
    · rintro ⟨k', hk', hlt⟩
      rw [Option.mem_unique hk' hk] at hlt
      exact absurd (hle t ht) (not_le.mpr hlt)

/-- **Filing a cancel**, with the history that includes it.
SOURCE: engine/mm_safety.py:118-122 -/
theorem fileCancel_spec {pre : List (GuardCall K)} {c : GuardCall K}
    (hall : Obeys ClockForward (pre ++ [c])) (hmethod : c.method = .recordCancel)
    {breaches : List K} {st : MarketMMState K}
    (h : Remembers params (callTimes .recordCancel c.slug pre) (callTimes .recordFill c.slug pre)
      breaches (fun t => ∀ c' ∈ pre, c'.now ≤ t) st) :
    (st.fileCancel params c.now).cancels =
        recent (ratioSpan params) c.now (callTimes .recordCancel c.slug (pre ++ [c])) ∧
      (st.fileCancel params c.now).fills =
        recent (ratioSpan params) c.now (callTimes .recordFill c.slug (pre ++ [c])) ∧
      (st.fileCancel params c.now).breachEvents = recent (killSpan params) c.now breaches ∧
      Remembers params (callTimes .recordCancel c.slug (pre ++ [c]))
        (callTimes .recordFill c.slug (pre ++ [c])) breaches
        (fun t => (∀ c' ∈ pre, c'.now ≤ t) ∧ c.now ≤ t) (st.fileCancel params c.now) := by
  have hcancels : callTimes .recordCancel c.slug (pre ++ [c]) =
      callTimes .recordCancel c.slug pre ++ [c.now] := by
    rw [callTimes_concat, if_pos ⟨hmethod, rfl⟩]
  have hfills : callTimes .recordFill c.slug (pre ++ [c]) =
      callTimes .recordFill c.slug pre ++ [] := by
    rw [callTimes_concat, if_neg (by simp [hmethod])]
  rw [hcancels, hfills]
  refine h.filed ((Obeys.concat_iff pre c).mp hall).2 ?_ ?_ (by simp [MarketMMState.fileCancel])
  · rw [← hcancels]
    exact callTimes_sorted .recordCancel c.slug hall
  · rw [← hfills]
    exact callTimes_sorted .recordFill c.slug hall

/-- **Filing a fill.**
SOURCE: engine/mm_safety.py:125-129 -/
theorem fileFill_spec {pre : List (GuardCall K)} {c : GuardCall K}
    (hall : Obeys ClockForward (pre ++ [c])) (hmethod : c.method = .recordFill)
    {breaches : List K} {st : MarketMMState K}
    (h : Remembers params (callTimes .recordCancel c.slug pre) (callTimes .recordFill c.slug pre)
      breaches (fun t => ∀ c' ∈ pre, c'.now ≤ t) st) :
    (st.fileFill params c.now).cancels =
        recent (ratioSpan params) c.now (callTimes .recordCancel c.slug (pre ++ [c])) ∧
      (st.fileFill params c.now).fills =
        recent (ratioSpan params) c.now (callTimes .recordFill c.slug (pre ++ [c])) ∧
      (st.fileFill params c.now).breachEvents = recent (killSpan params) c.now breaches ∧
      Remembers params (callTimes .recordCancel c.slug (pre ++ [c]))
        (callTimes .recordFill c.slug (pre ++ [c])) breaches
        (fun t => (∀ c' ∈ pre, c'.now ≤ t) ∧ c.now ≤ t) (st.fileFill params c.now) := by
  have hcancels : callTimes .recordCancel c.slug (pre ++ [c]) =
      callTimes .recordCancel c.slug pre ++ [] := by
    rw [callTimes_concat, if_neg (by simp [hmethod])]
  have hfills : callTimes .recordFill c.slug (pre ++ [c]) =
      callTimes .recordFill c.slug pre ++ [c.now] := by
    rw [callTimes_concat, if_pos ⟨hmethod, rfl⟩]
  rw [hcancels, hfills]
  refine h.filed ((Obeys.concat_iff pre c).mp hall).2 ?_ ?_ (by simp [MarketMMState.fileFill])
  · rw [← hcancels]
    exact callTimes_sorted .recordCancel c.slug hall
  · rw [← hfills]
    exact callTimes_sorted .recordFill c.slug hall

/-- **One call.** It keeps what every market remembers.
SOURCE: engine/mm_safety.py:118-174 -/
theorem remembers_step (hminute : 60 ≤ killSpan params) {pre : List (GuardCall K)}
    {c : GuardCall K} (hall : Obeys ClockForward (pre ++ [c])) {g : MMSafetyGuard K}
    {es : List (GuardEvent K)} {slug : String}
    (h : Remembers params (callTimes .recordCancel slug pre) (callTimes .recordFill slug pre)
      (breachTimes slug es) (fun t => ∀ c' ∈ pre, c'.now ≤ t) (g.market slug)) :
    Remembers params (callTimes .recordCancel slug (pre ++ [c]))
      (callTimes .recordFill slug (pre ++ [c]))
      (breachTimes slug (es ++ (guardMachine params).emits g c))
      (fun t => ∀ c' ∈ pre ++ [c], c'.now ≤ t) (((guardMachine params).next g c).market slug) := by
  have hc : ClockForward pre c := ((Obeys.concat_iff pre c).mp hall).2
  have hafter : ∀ t, (∀ c' ∈ pre ++ [c], c'.now ≤ t) → (∀ c' ∈ pre, c'.now ≤ t) ∧ c.now ≤ t :=
    fun t ht => (List.forall_mem_append.mp ht).imp_right fun hlast => hlast c List.mem_cons_self
  rw [breachTimes_append, breachTimes_emits]
  by_cases hslug : c.slug = slug
  · subst hslug
    cases hmethod : c.method with
    | recordCancel =>
      obtain ⟨-, -, hbreaches, hfiled⟩ := fileCancel_spec params hall hmethod h
      rw [market_next_recordCancel params g c hmethod]
      cases halert : ((g.market c.slug).fileCancel params c.now).breachAlert params c.slug
          c.now with
      | none =>
        rw [MarketMMState.maybeBreach_eq params c.slug, halert]
        simpa using hfiled.later hafter
      | some alert =>
        have hbreached := hfiled.breached hbreaches hminute ⟨hc, le_refl _⟩ (fun t ht => ht.2)
          halert
        simpa using hbreached.later hafter
    | recordFill =>
      obtain ⟨-, -, -, hfiled⟩ := fileFill_spec params hall hmethod h
      rw [market_next_recordFill params g c hmethod]
      simpa using hfiled.later hafter
    | isMarketKilled =>
      have hlater := h.later fun t ht => (hafter t ht).1
      rw [(next_isMarketKilled params g c hmethod).1]
      simp only [callTimes_concat, hmethod, reduceCtorEq, false_and, if_false, List.append_nil]
      rcases g.market_isMarketKilled c.slug c.slug c.now with hsame | ⟨-, ⟨k, hk, hout⟩, hoff⟩
      · rw [hsame]
        exact hlater
      · rw [hoff]
        exact hlater.timer_off ⟨k, hk, fun t ht => hout.trans (hafter t ht).2⟩
  · rw [market_next_of_ne params g slug c (Ne.symm hslug)]
    simp only [callTimes_concat, hslug, and_false, false_and, if_false, List.append_nil]
    exact h.later fun t ht => (hafter t ht).1

/-- **A whole run.** -/
theorem remembers_run (hminute : 60 ≤ killSpan params) (slug : String)
    (ls : List (GuardCall K)) (hls : Obeys ClockForward ls) :
    Remembers params (callTimes .recordCancel slug ls) (callTimes .recordFill slug ls)
      (breachTimes slug ((guardMachine params).trace MMSafetyGuard.init ls))
      (fun t => ∀ c ∈ ls, c.now ≤ t)
      (((guardMachine params).final MMSafetyGuard.init ls).market slug) := by
  induction ls using List.reverseRecOn with
  | nil => exact remembers_init params _
  | append_singleton pre c ih =>
    rw [Machine.final_concat, Machine.trace_concat]
    exact remembers_step params hminute hls (ih ((Obeys.concat_iff pre c).mp hls).1)

/-- What the machine does at a call, exactly, in terms of the calls and the breaches before it.
SOURCE: engine/mm_safety.py:118-174 -/
structure ExactAt (params : MMSafetyParams K) (pre : List (GuardCall K)) (c : GuardCall K) :
    Prop where
  windows : c.method ≠ .isMarketKilled →
    (((guardMachine params).final MMSafetyGuard.init (pre ++ [c])).market c.slug).cancels =
        recent (ratioSpan params) c.now (callTimes .recordCancel c.slug (pre ++ [c])) ∧
      (((guardMachine params).final MMSafetyGuard.init (pre ++ [c])).market c.slug).fills =
        recent (ratioSpan params) c.now (callTimes .recordFill c.slug (pre ++ [c]))
  breach : c.method = .recordCancel →
    ((∃ alert, .breach alert ∈ (guardMachine params).emits
        ((guardMachine params).final MMSafetyGuard.init pre) c) ↔
      params.cancelFillRatioMax <
          ((recent (ratioSpan params) c.now
              (callTimes .recordCancel c.slug (pre ++ [c]))).length : K) /
            (max 1 (recent (ratioSpan params) c.now
              (callTimes .recordFill c.slug (pre ++ [c]))).length : ℕ) ∧
        ∀ b ∈ breachTimes c.slug ((guardMachine params).trace MMSafetyGuard.init pre),
          60 ≤ c.now - b)
  killed : c.method = .isMarketKilled →
    (.answer true ∈ (guardMachine params).emits
        ((guardMachine params).final MMSafetyGuard.init pre) c ↔
      params.autoKillOnBreach = true ∧
        KilledByBreach params
          (breachTimes c.slug ((guardMachine params).trace MMSafetyGuard.init pre)) c.now)

/-- **The breach machine.** Whatever calls are made in the order of their times: after a record
the two deques hold what is in the window, a cancel records a breach exactly when the ratio of
the window exceeds the maximum and no breach has been recorded within the minute, a market is
reported killed exactly while the resume time of a breach that kills runs, and the breaches of a
market are a minute apart.
SOURCE: engine/mm_safety.py:118-174 -/
theorem breach_machine_exact (params : MMSafetyParams K)
    (hminute : 1 ≤ params.cancelFillKillWindowMin) (ls : List (GuardCall K))
    (hls : Obeys ClockForward ls) :
    (∀ pre c post, ls = pre ++ c :: post → ExactAt params pre c) ∧
      ∀ slug, (breachTimes slug ((guardMachine params).trace MMSafetyGuard.init ls)).Pairwise
        fun b b' => b + 60 ≤ b' := by
  have hspan : (60 : K) ≤ killSpan params := by
    have hone : (1 : K) ≤ (params.cancelFillKillWindowMin : K) := by exact_mod_cast hminute
    unfold killSpan
    linarith
  refine ⟨?_, fun slug => (remembers_run params hspan slug ls hls).spaced⟩
  rintro pre c post rfl
  rw [← List.singleton_append, ← List.append_assoc] at hls
  have hall : Obeys ClockForward (pre ++ [c]) := Obeys.of_append hls
  have hbefore := remembers_run params hspan c.slug pre ((Obeys.concat_iff pre c).mp hall).1
  refine ⟨?_, ?_, ?_⟩
  · intro hrecord
    rw [Machine.final_concat]
    cases hmethod : c.method with
    | recordCancel =>
      obtain ⟨hcancels, hfills, -, -⟩ := fileCancel_spec params hall hmethod hbefore
      obtain ⟨hkeepCancels, hkeepFills⟩ := MarketMMState.maybeBreach_cancels_fills params c.now
        ((((guardMachine params).final MMSafetyGuard.init pre).market c.slug).fileCancel
          params c.now)
      rw [market_next_recordCancel params _ c hmethod, hkeepCancels, hkeepFills]
      exact ⟨hcancels, hfills⟩
    | recordFill =>
      obtain ⟨hcancels, hfills, -, -⟩ := fileFill_spec params hall hmethod hbefore
      rw [market_next_recordFill params _ c hmethod]
      exact ⟨hcancels, hfills⟩
    | isMarketKilled => exact absurd hmethod hrecord
  · intro hmethod
    obtain ⟨hcancels, hfills, hbreaches, hfiled⟩ := fileCancel_spec params hall hmethod hbefore
    have hexact := breachAlert_isSome_iff c.slug hbreaches hfiled.sorted_breaches hspan
    rw [MarketMMState.cancelFillRatio, hcancels, hfills] at hexact
    rw [← hexact, emits_recordCancel params _ c hmethod, Option.isSome_iff_exists]
    simp
  · intro hmethod
    rw [(next_isMarketKilled params _ c hmethod).2, ← hbefore.killed c.now
      ((Obeys.concat_iff pre c).mp hall).2, ← MMSafetyGuard.isMarketKilled_fst,
      List.mem_singleton, GuardEvent.answer.injEq]
    exact eq_comm

end Runs

section Instance

/-- Two breaches three minutes apart kill the market. -/
def killedRun : List (GuardCall ℚ) :=
  [⟨.recordFill, "m", 0⟩, ⟨.recordCancel, "m", 10⟩, ⟨.recordCancel, "m", 20⟩,
    ⟨.recordCancel, "m", 200⟩, ⟨.isMarketKilled, "m", 300⟩]

/-- Two cancels a fill are too many, and two breaches within the hour. -/
def strictParams : MMSafetyParams ℚ := ⟨50, 1, 5, 2, 60, 15, 30, true⟩

example : (breachTimes "m" ((guardMachine strictParams).trace MMSafetyGuard.init killedRun)) =
    [20, 200] := by decide +kernel

/-- Every answer of the run is the exact one. -/
theorem breach_machine_exact_killedRun :
    (∀ pre c post, killedRun = pre ++ c :: post → ExactAt strictParams pre c) ∧
      ∀ slug, (breachTimes slug
        ((guardMachine strictParams).trace MMSafetyGuard.init killedRun)).Pairwise
          fun b b' => b + 60 ≤ b' := by
  have horder : Obeys ClockForward killedRun := by
    simp [killedRun, Obeys.cons_iff, Obeys.nil, ClockForward]
    norm_num
  exact breach_machine_exact strictParams (by decide) killedRun horder

end Instance

end TradingEdge.Analysis
