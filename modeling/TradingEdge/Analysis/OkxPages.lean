import TradingEdge.Analysis.BackfillCoverage
import TradingEdge.Library.Buffer

/-!
# The candles that the OKX backfill loses

The endpoint answers with the newest candles older than the cursor, and the cursor steps one
interval behind the oldest candle of a page: a candle that stands there is older than neither.  As
long as the candles behind full pages stand further back, the pages take three hundred candles of
the range after three hundred; the first that does not is lost, since all later cursors are at or
below it (`delivered_iff_unbroken`).
-/

set_option autoImplicit false

namespace TradingEdge.Analysis

open TradingEdge.Library TradingEdge.Program

variable {K : Type}

/-- The endpoint answers with the newest `limit` candles that are older than `after`, if that is
sent, the newest first. -/
def ServesOlder (historyCandles : String → String → Option ℤ → ℕ → List (RestCandle K))
    (instId bar : String) (candles : List (RestCandle K)) : Prop :=
  ∀ after limit, historyCandles instId bar after limit =
    ((candles.filter fun c => after.all fun a => decide (c.ts < a)).reverse).take limit

/-- Behind every three hundredth candle, the next stands back by more than an interval. -/
def Unbroken (stepMs : ℤ) (l : List (RestCandle K)) : Prop :=
  ∀ k a b, l[300 * k + 299]? = some a → l[300 * k + 300]? = some b → b.ts + stepMs < a.ts

/-- The candles older than a cursor, the newest first. -/
def olderThan (candles : List (RestCandle K)) (cursor : ℤ) : List (RestCandle K) :=
  (candles.filter fun c => c.ts < cursor).reverse

/-- Those of them that the range asks for. -/
def leftOf (candles : List (RestCandle K)) (fromTs cursor : ℤ) : List (RestCandle K) :=
  (olderThan candles cursor).filter fun c => fromTs ≤ c.ts * 1000

/-- The page of a cursor. -/
def okxPage (candles : List (RestCandle K)) (cursor : ℤ) : List (RestCandle K) :=
  (olderThan candles cursor).take 300

/-! ## Candles from the newest to the oldest -/

/-- Candles of one interval, the newest first. -/
def SpacedBack (step : ℤ) (l : List (RestCandle K)) : Prop :=
  l.Pairwise fun a b => b.ts + step ≤ a.ts

/-- Two candles of the list are an interval apart. -/
theorem SpacedBack.apart {step : ℤ} {l : List (RestCandle K)} (h : SpacedBack step l) {i j : ℕ}
    (hij : i < j) {a b : RestCandle K} (ha : l[i]? = some a) (hb : l[j]? = some b) :
    b.ts + step ≤ a.ts := by
  obtain ⟨hi, rfl⟩ := List.getElem?_eq_some_iff.mp ha
  obtain ⟨hj, rfl⟩ := List.getElem?_eq_some_iff.mp hb
  exact List.pairwise_iff_getElem.mp h i j hi hj hij

/-- The older candles are those before the cursor. -/
theorem mem_olderThan_iff {candles : List (RestCandle K)} {cursor : ℤ} {x : RestCandle K} :
    x ∈ olderThan candles cursor ↔ x ∈ candles ∧ x.ts < cursor := by
  unfold olderThan
  rw [List.mem_reverse, List.mem_filter, decide_eq_true_eq]

/-- What is left of the range is before the cursor. -/
theorem mem_leftOf_iff {candles : List (RestCandle K)} {fromTs cursor : ℤ} {x : RestCandle K} :
    x ∈ leftOf candles fromTs cursor ↔
      x ∈ candles ∧ x.ts < cursor ∧ fromTs ≤ x.ts * 1000 := by
  unfold leftOf
  rw [List.mem_filter, mem_olderThan_iff, decide_eq_true_eq, and_assoc]

section Pages

variable {stepMs : ℤ} {candles : List (RestCandle K)}

/-- The older candles of a history are spaced as it is. -/
theorem spacedBack_olderThan (h : Spaced stepMs candles) (cursor : ℤ) :
    SpacedBack stepMs (olderThan candles cursor) :=
  List.pairwise_reverse.mpr (h.sublist List.filter_sublist)

/-- So is what is left of the range. -/
theorem spacedBack_leftOf (h : Spaced stepMs candles) (fromTs cursor : ℤ) :
    SpacedBack stepMs (leftOf candles fromTs cursor) :=
  (spacedBack_olderThan h cursor).sublist List.filter_sublist

/-- What the range asks for stands in front of what it does not. -/
theorem leftOf_append (hstep : 0 < stepMs) (h : Spaced stepMs candles) (fromTs cursor : ℤ) :
    ∃ rest, leftOf candles fromTs cursor ++ rest = olderThan candles cursor := by
  refine ⟨_, filter_append_filter_not _ ((spacedBack_olderThan h cursor).imp ?_)⟩
  intro a b hab hb
  have hold := of_decide_eq_true hb
  exact decide_eq_true (by omega)

/-- The page of a cursor has the first three hundred of what is left. -/
theorem okxPage_eq (hstep : 0 < stepMs) (h : Spaced stepMs candles) (fromTs cursor : ℤ) :
    ∃ rest, okxPage candles cursor = (leftOf candles fromTs cursor).take 300 ++ rest ∧
      (300 ≤ (leftOf candles fromTs cursor).length → rest = []) := by
  obtain ⟨rest, hrest⟩ := leftOf_append hstep h fromTs cursor
  refine ⟨rest.take (300 - (leftOf candles fromTs cursor).length), ?_, ?_⟩
  · rw [okxPage, ← hrest, List.take_append]
  · intro hmany
    rw [Nat.sub_eq_zero_of_le hmany, List.take_zero]

/-- The candles older than a time between two neighbours are those from the second one on. -/
theorem SpacedBack.filter_lt_eq_drop (hstep : 0 < stepMs) {l : List (RestCandle K)}
    (h : SpacedBack stepMs l) {lower : ℤ} {n : ℕ} {a b : RestCandle K} (ha : l[n]? = some a)
    (hb : l[n + 1]? = some b) (hal : lower ≤ a.ts) (hbl : b.ts < lower) :
    (l.filter fun x => x.ts < lower) = l.drop (n + 1) := by
  have hfront : ((l.take (n + 1)).filter fun x => x.ts < lower) = [] := by
    apply List.filter_eq_nil_iff.mpr
    intro x hx hlt
    have hlt' := of_decide_eq_true hlt
    obtain ⟨i, hi, rfl⟩ := List.mem_take_iff_getElem.mp hx
    have hxi := List.getElem?_eq_getElem (l := l) (i := i) (by omega)
    rcases Nat.lt_or_ge i n with hin | hin
    · have hapart := h.apart hin hxi ha
      omega
    · obtain rfl : i = n := by omega
      rw [ha] at hxi
      rw [← Option.some.inj hxi] at hlt'
      omega
  have hback : ((l.drop (n + 1)).filter fun x => x.ts < lower) = l.drop (n + 1) := by
    apply List.filter_eq_self.mpr
    intro x hx
    obtain ⟨i, hi, rfl⟩ := List.mem_drop_iff_getElem.mp hx
    have hxi := List.getElem?_eq_getElem (l := l) (i := n + 1 + i) (by omega)
    rcases Nat.eq_zero_or_pos i with rfl | hpos
    · rw [Option.some.inj (hxi.symm.trans hb)]
      exact decide_eq_true hbl
    · have hapart := h.apart (by omega) hb hxi
      exact decide_eq_true (by omega)
  calc (l.filter fun x => x.ts < lower)
      = ((l.take (n + 1)).filter fun x => x.ts < lower) ++
        (l.drop (n + 1)).filter fun x => x.ts < lower := by
        rw [← List.filter_append, List.take_append_drop]
    _ = l.drop (n + 1) := by rw [hfront, hback, List.nil_append]

/-- From a cursor between two neighbours on, what is left are the older ones. -/
theorem leftOf_lower (hstep : 0 < stepMs) (h : Spaced stepMs candles) {fromTs cursor lower : ℤ}
    (hlower : lower ≤ cursor) {n : ℕ} {a b : RestCandle K}
    (ha : (leftOf candles fromTs cursor)[n]? = some a)
    (hb : (leftOf candles fromTs cursor)[n + 1]? = some b) (hal : lower ≤ a.ts)
    (hbl : b.ts < lower) :
    leftOf candles fromTs lower = (leftOf candles fromTs cursor).drop (n + 1) := by
  have hfilter : leftOf candles fromTs lower =
      (leftOf candles fromTs cursor).filter fun x => x.ts < lower := by
    unfold leftOf olderThan
    rw [← List.filter_reverse, ← List.filter_reverse, List.filter_filter, List.filter_filter,
      List.filter_filter]
    apply List.filter_congr
    intro x _
    have hkept : x.ts < lower → x.ts < cursor := fun hx => hx.trans_le hlower
    grind
  rw [hfilter]
  exact (spacedBack_leftOf h fromTs cursor).filter_lt_eq_drop hstep ha hb hal hbl

/-! ## Full pages -/

/-- One page has no place where the list could break. -/
theorem unbroken_of_length_le {l : List (RestCandle K)} (h : l.length ≤ 300) :
    Unbroken stepMs l := by
  intro k a b _ hb
  obtain ⟨hlt, -⟩ := List.getElem?_eq_some_iff.mp hb
  omega

/-- One full page, and the others behind it. -/
theorem unbroken_iff_drop {l : List (RestCandle K)} {a b : RestCandle K}
    (ha : l[299]? = some a) (hb : l[300]? = some b) :
    Unbroken stepMs l ↔ b.ts + stepMs < a.ts ∧ Unbroken stepMs (l.drop 300) := by
  constructor
  · intro h
    refine ⟨h 0 a b ha hb, ?_⟩
    intro k a' b' ha' hb'
    rw [List.getElem?_drop] at ha' hb'
    have hnext : 300 * (k + 1) = 300 + 300 * k := by ring
    refine h (k + 1) a' b' ?_ ?_
    · rw [hnext, Nat.add_assoc]
      exact ha'
    · rw [hnext, Nat.add_assoc]
      exact hb'
  · rintro ⟨hfirst, hrest⟩ k a' b' ha' hb'
    cases k with
    | zero =>
      obtain rfl : a = a' := Option.some.inj (ha.symm.trans ha')
      obtain rfl : b = b' := Option.some.inj (hb.symm.trans hb')
      exact hfirst
    | succ k =>
      have hnext : 300 * (k + 1) = 300 + 300 * k := by ring
      rw [hnext, Nat.add_assoc] at ha' hb'
      rw [← List.getElem?_drop] at ha' hb'
      exact hrest k a' b' ha' hb'

/-- A full page of the range ends with its three hundredth candle. -/
theorem okxPage_full (hstep : 0 < stepMs) (h : Spaced stepMs candles) {fromTs cursor : ℤ}
    {a : RestCandle K} (ha : (leftOf candles fromTs cursor)[299]? = some a) :
    okxPage candles cursor = (leftOf candles fromTs cursor).take 300 ∧
      (okxPage candles cursor).getLast? = some a := by
  obtain ⟨rest, hpage, hrest⟩ := okxPage_eq hstep h fromTs cursor
  obtain ⟨hmany, -⟩ := List.getElem?_eq_some_iff.mp ha
  rw [hrest hmany, List.append_nil] at hpage
  refine ⟨hpage, ?_⟩
  rw [hpage, List.getLast?_take, if_neg (by decide), ha]
  rfl

end Pages

/-! ## The walk backwards -/

/-- What the endpoint answers to a cursor: one that is zero is not sent. -/
def okxReply (candles : List (RestCandle K)) (cursor : ℤ) : List (RestCandle K) :=
  if cursor = 0 then candles.reverse.take 300 else okxPage candles cursor

/-- The cursor after it. -/
def okxNext (candles : List (RestCandle K)) (stepMs fromMs cursor : ℤ) : Option ℤ :=
  match (okxReply candles cursor).getLast? with
  | none => none
  | some oldest => if cursor ≤ oldest.ts then none else whileAfter (oldest.ts - stepMs) fromMs

/-- The range, or else the history, lies after 1970. -/
def AfterEpoch (stepMs fromTs : ℤ) (candles : List (RestCandle K)) : Prop :=
  0 ≤ fromTs ∨ ∀ x ∈ candles, stepMs < x.ts

/-- A cursor that the walk comes to from `cursor` has the candle on its page. -/
def Delivered (candles : List (RestCandle K)) (stepMs fromTs cursor : ℤ) (x : RestCandle K) :
    Prop :=
  ∃ c, Visits (okxNext candles stepMs (timestampMs fromTs)) (some cursor) c ∧
    x ∈ okxReply candles c

section Walk

variable {stepMs fromTs : ℤ} {candles : List (RestCandle K)}

/-- The loop goes on with a cursor beyond the start of the range. -/
theorem whileAfter_eq_some_iff {cursor stop c : ℤ} :
    whileAfter cursor stop = some c ↔ cursor = c ∧ stop < c := by
  unfold whileAfter
  grind

/-- A positive cursor is sent. -/
theorem okxReply_of_pos {cursor : ℤ} (hcursor : 0 < cursor) :
    okxReply candles cursor = okxPage candles cursor := by
  unfold okxReply
  exact if_neg hcursor.ne'

/-- A page has candles before its cursor. -/
theorem okxPage_sub {cursor : ℤ} {x : RestCandle K} (h : x ∈ okxPage candles cursor) :
    x ∈ candles ∧ x.ts < cursor :=
  mem_olderThan_iff.mp (List.mem_of_mem_take h)

/-- An answer has candles of the history. -/
theorem okxReply_sub {cursor : ℤ} {x : RestCandle K} (h : x ∈ okxReply candles cursor) :
    x ∈ candles := by
  unfold okxReply at h
  split at h
  · exact List.mem_reverse.mp (List.mem_of_mem_take h)
  · exact (okxPage_sub h).1

/-- The next cursor stands an interval behind a candle that is older than the cursor. -/
theorem okxNext_eq_some {fromMs c c' : ℤ} (h : okxNext candles stepMs fromMs c = some c') :
    fromMs < c' ∧ ∃ oldest ∈ candles, oldest.ts < c ∧ c' = oldest.ts - stepMs := by
  unfold okxNext at h
  cases hlast : (okxReply candles c).getLast? with
  | none =>
    rw [hlast] at h
    cases h
  | some oldest =>
    rw [hlast] at h
    dsimp only at h
    split at h
    · cases h
    · rename_i holder
      obtain ⟨hc', hafter⟩ := whileAfter_eq_some_iff.mp h
      exact ⟨hafter, oldest, okxReply_sub (List.mem_of_getLast? hlast), not_le.mp holder,
        hc'.symm⟩

/-- **Progress.** -/
theorem okxNext_lt (hstep : 0 < stepMs) {fromMs c c' : ℤ}
    (h : okxNext candles stepMs fromMs c = some c') : c' < c := by
  obtain ⟨-, oldest, -, holder, rfl⟩ := okxNext_eq_some h
  omega

/-- Milliseconds after 1970 are not negative. -/
theorem timestampMs_nonneg {ts : ℤ} (h : 0 ≤ ts) : 0 ≤ timestampMs ts :=
  le_tdiv_of_mul_le (by decide) (by omega)

/-- All later cursors are sent. -/
theorem okxNext_pos (hepoch : AfterEpoch stepMs fromTs candles) {c c' : ℤ}
    (h : okxNext candles stepMs (timestampMs fromTs) c = some c') : 0 < c' := by
  obtain ⟨hafter, oldest, hold, -, rfl⟩ := okxNext_eq_some h
  rcases hepoch with hrange | hhistory
  · exact (timestampMs_nonneg hrange).trans_lt hafter
  · have hlater := hhistory oldest hold
    omega

/-- From a cursor on, only older candles are delivered. -/
theorem Delivered.lt (hstep : 0 < stepMs) (hepoch : AfterEpoch stepMs fromTs candles) {cursor : ℤ}
    (hcursor : 0 < cursor) {x : RestCandle K} (h : Delivered candles stepMs fromTs cursor x) :
    x.ts < cursor := by
  obtain ⟨c, hvisit, hx⟩ := h
  have hc : 0 < c ∧ c ≤ cursor := by
    refine Visits.invariant (I := fun c => 0 < c ∧ c ≤ cursor) hvisit ?_ ?_
    · intro c hc
      obtain rfl := Option.some.inj hc
      exact ⟨hcursor, le_refl _⟩
    · intro c c' hc hnext
      exact ⟨okxNext_pos hepoch hnext, (okxNext_lt hstep hnext).le.trans hc.2⟩
  rw [okxReply_of_pos hc.1] at hx
  exact (okxPage_sub hx).2.trans_le hc.2

/-- A page, and what the cursor behind it delivers. -/
theorem delivered_iff {cursor : ℤ} (hcursor : 0 < cursor) {x : RestCandle K} :
    Delivered candles stepMs fromTs cursor x ↔ x ∈ okxPage candles cursor ∨
      ∃ c', okxNext candles stepMs (timestampMs fromTs) cursor = some c' ∧
        Delivered candles stepMs fromTs c' x := by
  constructor
  · rintro ⟨c, hvisit, hx⟩
    rcases visits_some_iff.mp hvisit with rfl | hlater
    · left
      rw [← okxReply_of_pos hcursor]
      exact hx
    · right
      cases hnext : okxNext candles stepMs (timestampMs fromTs) cursor with
      | none =>
        rw [hnext] at hlater
        cases hlater
      | some c' =>
        rw [hnext] at hlater
        exact ⟨c', rfl, c, hlater, hx⟩
  · rintro (hx | ⟨c', hnext, c, hvisit, hx⟩)
    · rw [← okxReply_of_pos hcursor] at hx
      exact ⟨cursor, Visits.here cursor, hx⟩
    · refine ⟨c, Visits.later ?_, hx⟩
      rw [hnext]
      exact hvisit

/-- After a full page of the range, the cursor stands an interval behind its last candle. -/
theorem okxNext_full (hstep : 0 < stepMs) (h : Spaced stepMs candles) {cursor : ℤ}
    (hcursor : 0 < cursor) {a : RestCandle K} (ha : (leftOf candles fromTs cursor)[299]? = some a)
    (fromMs : ℤ) : okxNext candles stepMs fromMs cursor = whileAfter (a.ts - stepMs) fromMs := by
  obtain ⟨-, hlast⟩ := okxPage_full hstep h ha
  have holder := (okxPage_sub (List.mem_of_getLast? hlast)).2
  unfold okxNext
  rw [okxReply_of_pos hcursor, hlast]
  exact if_neg (not_le.mpr holder)

/-- What is left behind a full page is not on it. -/
theorem not_mem_okxPage_of_mem_drop (hstep : 0 < stepMs) (h : Spaced stepMs candles) {cursor : ℤ}
    {a : RestCandle K} (ha : (leftOf candles fromTs cursor)[299]? = some a) {x : RestCandle K}
    (hx : x ∈ (leftOf candles fromTs cursor).drop 300) : x ∉ okxPage candles cursor := by
  intro hfront
  rw [(okxPage_full hstep h ha).1] at hfront
  have hsorted := spacedBack_leftOf h fromTs cursor
  rw [← List.take_append_drop 300 (leftOf candles fromTs cursor)] at hsorted
  have hapart := (List.pairwise_append.mp hsorted).2.2 x hfront x hx
  omega

/-- If the next candle stands further back, the cursor steps over none. -/
theorem okxNext_of_gap (hstep : 0 < stepMs) (h : Spaced stepMs candles) {cursor : ℤ}
    (hcursor : 0 < cursor) {a b : RestCandle K}
    (ha : (leftOf candles fromTs cursor)[299]? = some a)
    (hb : (leftOf candles fromTs cursor)[300]? = some b) (hgap : b.ts + stepMs < a.ts) :
    okxNext candles stepMs (timestampMs fromTs) cursor = some (a.ts - stepMs) ∧
      leftOf candles fromTs (a.ts - stepMs) = (leftOf candles fromTs cursor).drop 300 := by
  obtain ⟨-, -, hfrom⟩ := mem_leftOf_iff.mp (List.mem_of_getElem? hb)
  have hfromMs : timestampMs fromTs ≤ b.ts := tdiv_le_of_le_mul (by decide) hfrom
  have hnext : okxNext candles stepMs (timestampMs fromTs) cursor = some (a.ts - stepMs) := by
    rw [okxNext_full hstep h hcursor ha]
    exact whileAfter_eq_some_iff.mpr ⟨rfl, by omega⟩
  have holder := (okxNext_lt hstep hnext).le
  exact ⟨hnext, leftOf_lower hstep h holder ha hb (by omega) (by omega)⟩

/-- If it does not, the cursor steps to it or behind it, and it is lost. -/
theorem not_delivered_of_no_gap (hstep : 0 < stepMs) (h : Spaced stepMs candles)
    (hepoch : AfterEpoch stepMs fromTs candles) {cursor : ℤ} (hcursor : 0 < cursor)
    {a b : RestCandle K} (ha : (leftOf candles fromTs cursor)[299]? = some a)
    (hb : (leftOf candles fromTs cursor)[300]? = some b) (hnear : a.ts ≤ b.ts + stepMs) :
    ¬Delivered candles stepMs fromTs cursor b := by
  intro hdelivered
  rcases (delivered_iff hcursor).mp hdelivered with hfront | ⟨c', hc', hlater⟩
  · refine not_mem_okxPage_of_mem_drop hstep h ha (List.mem_iff_getElem?.mpr ⟨0, ?_⟩) hfront
    rw [List.getElem?_drop]
    exact hb
  · have holder := hlater.lt hstep hepoch (okxNext_pos hepoch hc')
    rw [okxNext_full hstep h hcursor ha] at hc'
    obtain ⟨rfl, -⟩ := whileAfter_eq_some_iff.mp hc'
    omega

/-- **Which candles of the range are delivered**: all of them, exactly if none stands right behind
a full page. -/
theorem delivered_iff_unbroken (hstep : 0 < stepMs) (h : Spaced stepMs candles)
    (hepoch : AfterEpoch stepMs fromTs candles) {cursor : ℤ} (hcursor : 0 < cursor) :
    (∀ x ∈ leftOf candles fromTs cursor, Delivered candles stepMs fromTs cursor x) ↔
      Unbroken stepMs (leftOf candles fromTs cursor) := by
  -- by the number of candles that are left
  induction hn : (leftOf candles fromTs cursor).length using Nat.strong_induction_on
    generalizing cursor with
  | _ n ih =>
    rcases Nat.lt_or_ge 300 n with hmany | hfew
    · have ha := List.getElem?_eq_getElem (l := leftOf candles fromTs cursor) (i := 299) (by omega)
      have hb := List.getElem?_eq_getElem (l := leftOf candles fromTs cursor) (i := 300) (by omega)
      generalize (leftOf candles fromTs cursor)[299] = a at ha
      generalize (leftOf candles fromTs cursor)[300] = b at hb
      rw [unbroken_iff_drop ha hb]
      by_cases hgap : b.ts + stepMs < a.ts
      · obtain ⟨hnext, hrest⟩ := okxNext_of_gap hstep h hcursor ha hb hgap
        have hshorter : (leftOf candles fromTs (a.ts - stepMs)).length < n := by
          rw [hrest, List.length_drop]
          omega
        have htail := ih _ hshorter (okxNext_pos hepoch hnext) rfl
        rw [hrest] at htail
        rw [← htail]
        constructor
        · intro hall
          refine ⟨hgap, ?_⟩
          intro x hx
          rcases (delivered_iff hcursor).mp (hall x (List.mem_of_mem_drop hx)) with
            hfront | ⟨c', hc', hlater⟩
          · exact absurd hfront (not_mem_okxPage_of_mem_drop hstep h ha hx)
          · obtain rfl := Option.some.inj (hnext.symm.trans hc')
            exact hlater
        · rintro ⟨-, hall⟩ x hx
          apply (delivered_iff hcursor).mpr
          rw [← List.take_append_drop 300 (leftOf candles fromTs cursor)] at hx
          rcases List.mem_append.mp hx with hfront | hback
          · left
            rw [(okxPage_full hstep h ha).1]
            exact hfront
          · exact Or.inr ⟨_, hnext, hall x hback⟩
      · refine iff_of_false ?_ fun hunbroken => hgap hunbroken.1
        intro hall
        exact not_delivered_of_no_gap hstep h hepoch hcursor ha hb (not_lt.mp hgap)
          (hall b (List.mem_of_getElem? hb))
    · have hshort : (leftOf candles fromTs cursor).length ≤ 300 := by omega
      refine iff_of_true ?_ (unbroken_of_length_le hshort)
      intro x hx
      obtain ⟨rest, hpage, -⟩ := okxPage_eq hstep h fromTs cursor
      rw [List.take_of_length_le hshort] at hpage
      refine (delivered_iff hcursor).mpr (Or.inl ?_)
      rw [hpage]
      exact List.mem_append_left _ hx

end Walk

/-! ## The backfill -/

/-- No candle of the range starts at its end cut to milliseconds, and behind every three hundredth
of its candles, counted from the newest, the next stands back by more than an interval. -/
def CleanPages (candles : List (RestCandle K)) (stepMs fromTs toTs : ℤ) : Prop :=
  (∀ x ∈ inRange 1000 fromTs toTs candles, x.ts < timestampMs toTs) ∧
    Unbroken stepMs (inRange 1000 fromTs toTs candles).reverse

/-- The page of a cursor is the answer, the oldest candle first. -/
theorem okx_fetch_eq {historyCandles : String → String → Option ℤ → ℕ → List (RestCandle K)}
    {instId bar : String} {candles : List (RestCandle K)}
    (hserves : ServesOlder historyCandles instId bar candles) (c : ℤ) :
    okxCandlesPage historyCandles instId bar c = (okxReply candles c).reverse := by
  unfold okxCandlesPage okxReply
  rw [hserves]
  congr 1
  split
  · simp only [Option.all_none, List.filter_true]
  · rfl

/-- The rows of a page and its next cursor.
SOURCE: ingest/okx/adapter.py:136-180 -/
theorem okxBackfillPage_eq {symbol interval : String} {stepS : ℤ}
    (hs : okxIntervalS.lookup interval = some stepS) (fromMs cursor : ℤ)
    (candles : List (RestCandle K)) :
    (okxBackfillPage symbol interval fromMs cursor (okxReply candles cursor).reverse).rows =
        ((okxReply candles cursor).reverse.filter fun x => fromMs ≤ x.ts).map
          (ohlcvRow "okx" symbol interval 1000) ∧
      (okxBackfillPage symbol interval fromMs cursor (okxReply candles cursor).reverse).next =
        okxNext candles (stepS * 1000) fromMs cursor := by
  unfold okxBackfillPage okxNext
  rw [List.head?_reverse, hs]
  cases hlast : (okxReply candles cursor).getLast? with
  | none =>
    rw [List.getLast?_eq_none_iff.mp hlast]
    exact ⟨rfl, rfl⟩
  | some oldest => exact ⟨rfl, rfl⟩

/-- The backfill ends, and stores the candles that its cursors have been answered with.
SOURCE: ingest/okx/adapter.py:124-181 -/
theorem okx_stores_iff {historyCandles : String → String → Option ℤ → ℕ → List (RestCandle K)}
    {symbol interval bar : String} {stepS : ℤ} {candles : List (RestCandle K)}
    (hbar : intervalToBar.lookup interval = some bar)
    (hs : okxIntervalS.lookup interval = some stepS)
    (hserves : ServesOlder historyCandles (toOkxInstId symbol) bar candles)
    (hspaced : Spaced (stepS * 1000) candles) (fromTs toTs : ℤ) {wanted : List (RestCandle K)}
    (hwanted : ∀ x ∈ wanted, x ∈ candles ∧ timestampMs fromTs ≤ x.ts) :
    (∃ b, okxBackfill historyCandles symbol interval fromTs toTs = .ok b ∧
      Stores b (ohlcvRow "okx" symbol interval 1000) wanted) ↔
    ∀ x ∈ wanted, ∃ c, Visits (okxNext candles (stepS * 1000) (timestampMs fromTs))
      (whileAfter (timestampMs toTs) (timestampMs fromTs)) c ∧ x ∈ okxReply candles c := by
  have hstep : 0 < stepS * 1000 := by
    have hpos : 0 < stepS := lookup_pos (by decide) hs
    omega
  unfold okxBackfill
  rw [hbar]
  simp only [Except.ok.injEq, exists_eq_left']
  generalize hb : (⟨_, _, _, _⟩ : BackfillLoop K) = b
  have hrows : ∀ c r, r ∈ b.rows c ↔ ∃ x ∈ okxReply candles c, timestampMs fromTs ≤ x.ts ∧
      r = ohlcvRow "okx" symbol interval 1000 x := by
    intro c r
    rw [← hb]
    dsimp only [BackfillLoop.rows]
    rw [okx_fetch_eq hserves, (okxBackfillPage_eq hs _ c candles).1, List.mem_map]
    simp only [List.mem_filter, List.mem_reverse, decide_eq_true_eq, and_assoc, eq_comm (b := r)]
  have hnext : b.next = okxNext candles (stepS * 1000) (timestampMs fromTs) := by
    funext c
    rw [← hb]
    dsimp only [BackfillLoop.next]
    rw [okx_fetch_eq hserves, (okxBackfillPage_eq hs _ c candles).2]
  have hinsert : ∀ t rows, b.insert t rows = rows.foldl Table.insertNew t := by
    rw [← hb]
    exact fun t rows => rfl
  have hstart : b.start = whileAfter (timestampMs toTs) (timestampMs fromTs) := by
    rw [← hb]
  rw [← hstart, ← hnext]
  refine stores_candles_iff (by decide) hstep hspaced hinsert
    (fun c => (c - timestampMs fromTs).toNat) ?_ (fun c x hx => okxReply_sub hx) hrows hwanted
  intro c c' _ hc'
  rw [hnext] at hc'
  have holder := okxNext_lt hstep hc'
  have hafter := (okxNext_eq_some hc').1
  omega

/-- The end of a range cut to milliseconds has the candles of the range below it, but for one that
stands at it. -/
theorem leftOf_timestampMs {candles : List (RestCandle K)} {fromTs toTs : ℤ}
    (hopen : ∀ x ∈ inRange 1000 fromTs toTs candles, x.ts < timestampMs toTs) :
    leftOf candles fromTs (timestampMs toTs) = (inRange 1000 fromTs toTs candles).reverse := by
  unfold leftOf olderThan inRange at *
  rw [← List.filter_reverse, ← List.filter_reverse, List.filter_filter]
  apply List.filter_congr
  intro x hx
  rw [← Bool.decide_and, decide_eq_decide]
  constructor
  · rintro ⟨hfrom, hlt⟩
    refine ⟨hfrom, not_le.mp fun hto => ?_⟩
    have hcut := tdiv_le_of_le_mul (by decide) hto
    exact absurd hcut (not_le.mpr hlt)
  · rintro ⟨hfrom, hto⟩
    have hmem : x ∈ inRange 1000 fromTs toTs candles :=
      mem_inRange_iff.mpr ⟨List.mem_reverse.mp hx, hfrom, hto⟩
    exact ⟨hfrom, hopen x hmem⟩

/-- The cursors deliver all candles of the range exactly if its pages are clean. -/
theorem okx_delivered_iff_cleanPages {stepMs : ℤ} (hstep : 0 < stepMs)
    {candles : List (RestCandle K)} (hspaced : Spaced stepMs candles) {fromTs : ℤ}
    (hepoch : AfterEpoch stepMs fromTs candles) (toTs : ℤ) :
    (∀ x ∈ inRange 1000 fromTs toTs candles, ∃ c,
      Visits (okxNext candles stepMs (timestampMs fromTs))
        (whileAfter (timestampMs toTs) (timestampMs fromTs)) c ∧ x ∈ okxReply candles c) ↔
    CleanPages candles stepMs fromTs toTs := by
  by_cases hany : inRange 1000 fromTs toTs candles = []
  · rw [CleanPages, hany]
    refine iff_of_true (fun x hx => absurd hx List.not_mem_nil) ⟨?_, ?_⟩
    · exact fun x hx => absurd hx List.not_mem_nil
    · exact unbroken_of_length_le (by simp)
  · obtain ⟨y, hy⟩ := List.exists_mem_of_ne_nil _ hany
    obtain ⟨hycandle, hyfrom, hyto⟩ := mem_inRange_iff.mp hy
    have hyfromMs : timestampMs fromTs ≤ y.ts := tdiv_le_of_le_mul (by decide) hyfrom
    have hytoMs : y.ts ≤ timestampMs toTs := le_tdiv_of_mul_le (by decide) hyto.le
    by_cases hentered : timestampMs fromTs < timestampMs toTs
    · have hend : 0 < timestampMs toTs := by
        rcases hepoch with hrange | hhistory
        · exact (timestampMs_nonneg hrange).trans_lt hentered
        · have hlater := hhistory y hycandle
          omega
      rw [whileAfter_eq_some_iff.mpr ⟨rfl, hentered⟩]
      constructor
      · intro hall
        have hopen : ∀ x ∈ inRange 1000 fromTs toTs candles, x.ts < timestampMs toTs :=
          fun x hx => Delivered.lt hstep hepoch hend (hall x hx)
        refine ⟨hopen, ?_⟩
        rw [← leftOf_timestampMs hopen, ← delivered_iff_unbroken hstep hspaced hepoch hend]
        intro x hx
        rw [leftOf_timestampMs hopen, List.mem_reverse] at hx
        exact hall x hx
      · rintro ⟨hopen, hunbroken⟩ x hx
        rw [← leftOf_timestampMs hopen, ← delivered_iff_unbroken hstep hspaced hepoch hend]
          at hunbroken
        apply hunbroken x
        rw [leftOf_timestampMs hopen, List.mem_reverse]
        exact hx
    · -- the loop is not entered, and the candle stands at the end
      refine iff_of_false ?_ ?_
      · intro hall
        obtain ⟨c, hvisit, -⟩ := hall y hy
        rw [whileAfter, if_neg hentered] at hvisit
        cases hvisit
      · rintro ⟨hopen, -⟩
        have hbefore := hopen y hy
        omega

/-- **When the OKX backfill stores every candle.**
SOURCE: ingest/okx/adapter.py:92-181 -/
theorem okx_backfill_complete_iff
    {historyCandles : String → String → Option ℤ → ℕ → List (RestCandle K)}
    {symbol interval bar : String} {stepS : ℤ} {candles : List (RestCandle K)}
    (hbar : intervalToBar.lookup interval = some bar)
    (hs : okxIntervalS.lookup interval = some stepS)
    (hserves : ServesOlder historyCandles (toOkxInstId symbol) bar candles)
    (hspaced : Spaced (stepS * 1000) candles) {fromTs : ℤ}
    (hepoch : AfterEpoch (stepS * 1000) fromTs candles) (toTs : ℤ) :
    (∃ b, okxBackfill historyCandles symbol interval fromTs toTs = .ok b ∧
      Stores b (ohlcvRow "okx" symbol interval 1000) (inRange 1000 fromTs toTs candles)) ↔
    CleanPages candles (stepS * 1000) fromTs toTs := by
  have hstep : 0 < stepS := lookup_pos (by decide) hs
  rw [okx_stores_iff hbar hs hserves hspaced fromTs toTs fun x hx =>
    ⟨(mem_inRange_iff.mp hx).1, tdiv_le_of_le_mul (by decide) (mem_inRange_iff.mp hx).2.1⟩]
  exact okx_delivered_iff_cleanPages (by omega) hspaced hepoch toTs

section OkxInstance

/-- An OKX endpoint over a list of candles. -/
def historyCandlesOf (candles : List (RestCandle ℚ)) (_instId _bar : String) (after : Option ℤ)
    (limit : ℕ) : List (RestCandle ℚ) :=
  ((candles.filter fun c => after.all fun a => decide (c.ts < a)).reverse).take limit

/-- This endpoint serves the candles before `after`, the newest first. -/
theorem servesOlder_historyCandlesOf (candles : List (RestCandle ℚ)) (instId bar : String) :
    ServesOlder (historyCandlesOf candles) instId bar candles := fun _ _ => rfl

/-- A backfill of five minutes from a history of four candles. -/
theorem okx_backfill_complete_iff_fourMinutes :
    (∃ b, okxBackfill (historyCandlesOf (minuteCandles 1000)) "BTCUSDT" "1m" 0 300000000 = .ok b ∧
      Stores b (ohlcvRow "okx" "BTCUSDT" "1m" 1000)
        (inRange 1000 0 300000000 (minuteCandles 1000))) ↔
    CleanPages (minuteCandles 1000) (60 * 1000) 0 300000000 :=
  okx_backfill_complete_iff rfl rfl (servesOlder_historyCandlesOf _ _ "1m") spaced_minutes_ms
    (Or.inl (le_refl 0)) 300000000

/-- So many candles a minute apart, in November 2023. -/
def novemberRow (n : ℕ) : List (RestCandle ℚ) :=
  (List.range n).map fun i : ℕ => ⟨1700000040000 + 60000 * (i : ℤ), 1, 1, 1, 1, 1⟩

/-- The candles of November are a minute apart. -/
theorem spaced_novemberRow (n : ℕ) : Spaced (60 * 1000) (novemberRow n) := by
  unfold Spaced novemberRow
  rw [List.pairwise_map]
  refine List.pairwise_lt_range.imp ?_
  intro i j hij
  dsimp only
  omega

/-- 301 candles: the first page holds three hundred, and the cursor steps to the oldest. -/
theorem behind_full_page_lost :
    ¬∀ (historyCandles : String → String → Option ℤ → ℕ → List (RestCandle ℚ))
      (symbol interval bar : String) (stepS : ℤ) (candles : List (RestCandle ℚ))
      (fromTs toTs : ℤ),
      intervalToBar.lookup interval = some bar → okxIntervalS.lookup interval = some stepS →
      ServesOlder historyCandles (toOkxInstId symbol) bar candles →
      Spaced (stepS * 1000) candles →
      ∃ b, okxBackfill historyCandles symbol interval fromTs toTs = .ok b ∧
        Stores b (ohlcvRow "okx" symbol interval 1000) (inRange 1000 fromTs toTs candles) := by
  intro h
  have hstores := h (historyCandlesOf (novemberRow 301)) "BTCUSDT" "1m" "1m" 60 (novemberRow 301)
    1700000040000000 1700018100000000 rfl rfl (servesOlder_historyCandlesOf _ _ _)
    (spaced_novemberRow 301)
  have hall : inRange 1000 1700000040000000 1700018100000000 (novemberRow 301) =
      novemberRow 301 := by
    apply List.filter_eq_self.mpr
    intro c hc
    obtain ⟨i, hi, rfl⟩ := List.mem_map.mp hc
    have hlast := List.mem_range.mp hi
    rw [decide_eq_true_eq]
    dsimp only
    omega
  have hbar : intervalToBar.lookup "1m" = some "1m" := rfl
  have hs : okxIntervalS.lookup "1m" = some 60 := rfl
  have hdelivered := (okx_stores_iff hbar hs
    (servesOlder_historyCandlesOf _ _ _) (spaced_novemberRow 301) 1700000040000000
    1700018100000000 fun x hx =>
      ⟨(mem_inRange_iff.mp hx).1, tdiv_le_of_le_mul (by decide) (mem_inRange_iff.mp hx).2.1⟩).mp
    hstores
  have hstep : (0 : ℤ) < 60 * 1000 := by decide
  have hclean := (okx_delivered_iff_cleanPages hstep
    (spaced_novemberRow 301) (Or.inl (by decide)) 1700018100000000).mp hdelivered
  rw [CleanPages, hall] at hclean
  have hbreak := hclean.2 0 ⟨1700000040000 + 60000 * (1 : ℕ), 1, 1, 1, 1, 1⟩
    ⟨1700000040000 + 60000 * (0 : ℕ), 1, 1, 1, 1, 1⟩ (by simp [novemberRow]) (by simp [novemberRow])
  dsimp only at hbreak
  omega

end OkxInstance

end TradingEdge.Analysis
