import TradingEdge.Program.Vpin

/-!
# What the VPIN buckets hold

The open bucket is empty or short of full, and a completed one is full but for the slack
(`SoundBuckets`).  So a chunk always has room, pouring it in keeps this and adds the chunk to the
volume (`SoundBuckets.pour`, `bucketsVolume_pour`).  A turn of the inner loop that leaves something of the
trade has closed a bucket, and takes the volume of a whole one off what the open bucket and the
trade have together; that is why the loop ends (`bucketsToGo_turn`).
-/

set_option autoImplicit false

namespace TradingEdge.Analysis

open TradingEdge.Program TradingEdge.Library

variable {K : Type} [Field K] [LinearOrder K]

/-- What a completed bucket holds: its two sides make its fill, which is the volume but for the
slack. -/
structure FilledBucket (bucketVolume : K) (b : VpinBucket K) : Prop where
  buy_nonneg : 0 ≤ b.buy
  sell_nonneg : 0 ≤ b.sell
  accounts : b.buy + b.sell = b.fill
  fill_pos : 0 < b.fill
  full : bucketVolume - bucketSlack ≤ b.fill
  le_volume : b.fill ≤ bucketVolume

/-- The buckets between two turns. -/
structure SoundBuckets (bucketVolume : K) (s : VpinState K) : Prop where
  buy_nonneg : 0 ≤ s.buyBucket
  sell_nonneg : 0 ≤ s.sellBucket
  accounts : s.buyBucket + s.sellBucket = s.bucketFill
  isOpen : s.bucketFill = 0 ∨ s.bucketFill < bucketVolume - bucketSlack
  completed : ∀ b ∈ s.completed, FilledBucket bucketVolume b

/-- What the completed buckets and the open one hold together. -/
def bucketsVolume (s : VpinState K) : K := (s.completed.map VpinBucket.fill).sum + s.bucketFill

/-- The total of the positive sizes. -/
def tradedVolume (trades : List (VpinTrade K)) : K :=
  ((trades.filter fun t => 0 < t.qty).map VpinTrade.qty).sum

omit [LinearOrder K] in
/-- At first the buckets hold nothing. -/
theorem bucketsVolume_init : bucketsVolume (VpinState.init : VpinState K) = 0 := by
  simp [bucketsVolume, VpinState.init]

/-- Pouring adds the chunk to the volume, whether it closes the bucket or not.
SOURCE: engine/features/vpin.py:38-46 -/
theorem bucketsVolume_pour (bucketVolume : K) (isBuy : Bool) (s : VpinState K) (chunk : K) :
    bucketsVolume (s.pour bucketVolume isBuy chunk) = bucketsVolume s + chunk := by
  unfold VpinState.pour bucketsVolume
  dsimp only
  split
  · rw [List.map_append, List.sum_append]
    simp [add_assoc]
  · exact (add_assoc _ _ _).symm

/-- At first they are sound. -/
theorem soundBuckets_init (bucketVolume : K) :
    SoundBuckets bucketVolume (VpinState.init : VpinState K) where
  buy_nonneg := le_refl 0
  sell_nonneg := le_refl 0
  accounts := add_zero 0
  isOpen := Or.inl rfl
  completed := by
    intro b hb
    cases hb

omit [LinearOrder K] in
/-- The sides of the bucket a chunk goes into make its new fill.
SOURCE: engine/features/vpin.py:38-42 -/
theorem sides_pour (isBuy : Bool) (buy sell fill chunk : K) (h : buy + sell = fill) :
    (if isBuy then buy + chunk else buy) + (if isBuy then sell else sell + chunk) =
      fill + chunk := by
  cases isBuy
  · rw [← h]
    exact (add_assoc _ _ _).symm
  · rw [← h]
    exact add_right_comm _ _ _

/-- What a turn does.
SOURCE: engine/features/vpin.py:35-46 -/
theorem vpinTurn_eq_some {bucketVolume : K} {isBuy : Bool} {s s' : VpinState K × K}
    (hturn : vpinTurn bucketVolume isBuy s = some s') :
    0 < s.2 ∧ s' = (s.1.pour bucketVolume isBuy (min (bucketVolume - s.1.bucketFill) s.2),
      s.2 - min (bucketVolume - s.1.bucketFill) s.2) := by
  unfold vpinTurn at hturn
  split at hturn
  · rename_i hleft
    exact ⟨hleft, (Option.some.inj hturn).symm⟩
  · cases hturn

/-- A chunk takes the open bucket up by its own size at most.
SOURCE: engine/features/vpin.py:42-46 -/
theorem bucketFill_pour_le (bucketVolume : K) (isBuy : Bool) (s : VpinState K) {chunk : K}
    (h : 0 ≤ s.bucketFill + chunk) :
    (s.pour bucketVolume isBuy chunk).bucketFill ≤ s.bucketFill + chunk := by
  unfold VpinState.pour
  dsimp only
  split
  · exact h
  · exact le_refl _

variable [IsStrictOrderedRing K]

/-- The slack is positive. -/
theorem bucketSlack_pos : (0 : K) < bucketSlack := by
  unfold bucketSlack
  positivity

/-- The fill of the open bucket is not negative. -/
theorem SoundBuckets.fill_nonneg {bucketVolume : K} {s : VpinState K}
    (h : SoundBuckets bucketVolume s) : 0 ≤ s.bucketFill := by
  rw [← h.accounts]
  exact add_nonneg h.buy_nonneg h.sell_nonneg

/-- The open bucket has room. -/
theorem SoundBuckets.room_pos {bucketVolume : K} {s : VpinState K}
    (h : SoundBuckets bucketVolume s) (hvolume : 0 < bucketVolume) :
    0 < bucketVolume - s.bucketFill := by
  have hslack : (0 : K) < bucketSlack := bucketSlack_pos
  rcases h.isOpen with hempty | hshort
  · rw [hempty, sub_zero]
    exact hvolume
  · linarith

/-- **What pouring keeps.** A chunk that fits leaves the buckets sound.
SOURCE: engine/features/vpin.py:38-46 -/
theorem SoundBuckets.pour {bucketVolume : K} {s : VpinState K} (h : SoundBuckets bucketVolume s)
    (isBuy : Bool) {chunk : K} (hchunk : 0 < chunk) (hfits : chunk ≤ bucketVolume - s.bucketFill) :
    SoundBuckets bucketVolume (s.pour bucketVolume isBuy chunk) := by
  have hbuy : 0 ≤ if isBuy then s.buyBucket + chunk else s.buyBucket := by
    split
    · exact add_nonneg h.buy_nonneg hchunk.le
    · exact h.buy_nonneg
  have hsell : 0 ≤ if isBuy then s.sellBucket else s.sellBucket + chunk := by
    split
    · exact h.sell_nonneg
    · exact add_nonneg h.sell_nonneg hchunk.le
  have haccounts := sides_pour isBuy _ _ _ chunk h.accounts
  unfold VpinState.pour
  dsimp only
  split
  · rename_i hfull
    refine ⟨le_refl 0, le_refl 0, add_zero 0, Or.inl rfl, ?_⟩
    intro b hb
    rcases List.mem_append.mp hb with hold | hnew
    · exact h.completed b hold
    · rw [List.mem_singleton.mp hnew]
      exact ⟨hbuy, hsell, haccounts, add_pos_of_nonneg_of_pos h.fill_nonneg hchunk, hfull,
        by linarith⟩
  · rename_i hshort
    exact ⟨hbuy, hsell, haccounts, Or.inr (not_le.mp hshort), h.completed⟩

/-! ## The inner loop -/

/-- The invariant of the inner loop over a trade, before which the buckets held `before`. -/
structure Pouring (bucketVolume before qty : K) (s : VpinState K × K) : Prop where
  sound : SoundBuckets bucketVolume s.1
  left_nonneg : 0 ≤ s.2
  conserved : bucketsVolume s.1 + s.2 = before + qty

/-- A turn of the inner loop goes on pouring. -/
theorem Pouring.turn {bucketVolume before qty : K} {isBuy : Bool} {s s' : VpinState K × K}
    (h : Pouring bucketVolume before qty s) (hvolume : 0 < bucketVolume)
    (hturn : vpinTurn bucketVolume isBuy s = some s') : Pouring bucketVolume before qty s' := by
  obtain ⟨hleft, rfl⟩ := vpinTurn_eq_some hturn
  refine ⟨?_, ?_, ?_⟩
  · exact h.sound.pour isBuy (lt_min (h.sound.room_pos hvolume) hleft) (min_le_left _ _)
  · exact sub_nonneg.mpr (min_le_right _ _)
  · dsimp only
    rw [bucketsVolume_pour, ← h.conserved]
    ring

/-- A chunk that takes all the room closes the bucket. -/
theorem bucketFill_pour_room (bucketVolume : K) (isBuy : Bool) (s : VpinState K) :
    (s.pour bucketVolume isBuy (bucketVolume - s.bucketFill)).bucketFill = 0 := by
  have hfull : bucketVolume - bucketSlack ≤ s.bucketFill + (bucketVolume - s.bucketFill) := by
    have hslack : (0 : K) < bucketSlack := bucketSlack_pos
    linarith
  unfold VpinState.pour
  dsimp only
  rw [if_pos hfull]

variable [FloorRing K]

/-- How many buckets the open one and the rest of the trade would fill, and one more while there
is a rest. -/
def bucketsToGo (bucketVolume : K) (s : VpinState K × K) : ℕ :=
  ⌊(s.1.bucketFill + s.2) / bucketVolume⌋₊ + if 0 < s.2 then 1 else 0

/-- **Every turn is progress**: it uses the trade up, or closes a bucket.
SOURCE: engine/features/vpin.py:35-46 -/
theorem bucketsToGo_turn {bucketVolume before qty : K} {isBuy : Bool} {s s' : VpinState K × K}
    (h : Pouring bucketVolume before qty s) (hvolume : 0 < bucketVolume)
    (hturn : vpinTurn bucketVolume isBuy s = some s') :
    bucketsToGo bucketVolume s' < bucketsToGo bucketVolume s := by
  obtain ⟨hleft, rfl⟩ := vpinTurn_eq_some hturn
  have hfill := h.sound.fill_nonneg
  unfold bucketsToGo
  dsimp only
  rw [if_pos hleft]
  rcases le_or_gt s.2 (bucketVolume - s.1.bucketFill) with hfits | hsplit
  · -- the rest of the trade goes into the open bucket
    rw [min_eq_right hfits, sub_self, if_neg (lt_irrefl 0), add_zero, add_zero]
    have hle := bucketFill_pour_le bucketVolume isBuy s.1 (add_nonneg hfill hleft.le)
    exact Nat.lt_succ_of_le (Nat.floor_le_floor (div_le_div_of_nonneg_right hle hvolume.le))
  · -- a whole bucket is closed, and there is a rest
    rw [min_eq_left hsplit.le, bucketFill_pour_room, zero_add, if_pos (sub_pos.mpr hsplit)]
    have hone : (s.2 - (bucketVolume - s.1.bucketFill)) / bucketVolume =
        (s.1.bucketFill + s.2) / bucketVolume - 1 := by
      field_simp
      ring
    have hfloor : 1 ≤ ⌊(s.1.bucketFill + s.2) / bucketVolume⌋₊ := by
      rw [Nat.one_le_floor_iff, one_le_div hvolume]
      linarith
    rw [hone, Nat.floor_sub_one]
    omega

/-- **A trade is poured in full.** The inner loop ends, and what the buckets hold has grown by
the size of the trade, if that is positive.
SOURCE: engine/features/vpin.py:30-46 -/
theorem vpinTrade_spec {bucketVolume : K} (hvolume : 0 < bucketVolume) {s : VpinState K}
    (hs : SoundBuckets bucketVolume s) (t : VpinTrade K) :
    ∃ s' enough, (∀ fuel, enough ≤ fuel → vpinTrade fuel bucketVolume s t = some s') ∧
      SoundBuckets bucketVolume s' ∧ bucketsVolume s' = bucketsVolume s + tradedVolume [t] := by
  by_cases hqty : t.qty ≤ 0
  · refine ⟨s, 0, ?_, hs, ?_⟩
    · intro fuel _
      rw [vpinTrade, if_pos hqty]
    · simp [tradedVolume, not_lt.mpr hqty]
  · have hpos : 0 < t.qty := not_le.mp hqty
    have hstart : Pouring bucketVolume (bucketsVolume s) t.qty (s, t.qty) := ⟨hs, hpos.le, rfl⟩
    obtain ⟨⟨s', left⟩, hends, hend, hexit⟩ := ends_with (bucketsToGo bucketVolume)
      (fun r r' hr hturn => ⟨hr.turn hvolume hturn, bucketsToGo_turn hr hvolume hturn⟩) hstart
    obtain ⟨enough, henough⟩ := Ends.exists_enough hends
    have hnone : left = 0 := by
      refine le_antisymm ?_ hend.left_nonneg
      rw [← not_lt]
      intro hleft
      rw [vpinTurn, if_pos hleft] at hexit
      cases hexit
    refine ⟨s', enough, ?_, hend.sound, ?_⟩
    · intro fuel hfuel
      rw [vpinTrade, if_neg hqty, henough fuel hfuel]
      rfl
    · have hconserved := hend.conserved
      dsimp only at hconserved
      rw [hnone, add_zero] at hconserved
      rw [hconserved]
      simp [tradedVolume, hpos]

omit [FloorRing K] [IsStrictOrderedRing K] in
/-- The volume of the trades, by the first one. -/
theorem tradedVolume_cons (t : VpinTrade K) (trades : List (VpinTrade K)) :
    tradedVolume (t :: trades) = tradedVolume [t] + tradedVolume trades := by
  by_cases hqty : 0 < t.qty
  · simp [tradedVolume, hqty]
  · simp [tradedVolume, hqty]

/-- **So are all trades**, one after the other.
SOURCE: engine/features/vpin.py:25-46 -/
theorem vpinBuckets_from {bucketVolume : K} (hvolume : 0 < bucketVolume)
    (trades : List (VpinTrade K)) {s : VpinState K} (hs : SoundBuckets bucketVolume s) :
    ∃ s' enough,
      (∀ fuel, enough ≤ fuel → trades.foldlM (vpinTrade fuel bucketVolume) s = some s') ∧
      SoundBuckets bucketVolume s' ∧ bucketsVolume s' = bucketsVolume s + tradedVolume trades := by
  induction trades generalizing s with
  | nil =>
    refine ⟨s, 0, fun _ _ => rfl, hs, ?_⟩
    simp [tradedVolume]
  | cons t trades ih =>
    obtain ⟨mid, first, hfirst, hmid, hmidVolume⟩ := vpinTrade_spec hvolume hs t
    obtain ⟨s', rest, hrest, hs', hvolume'⟩ := ih hmid
    refine ⟨s', max first rest, ?_, hs', ?_⟩
    · intro fuel hfuel
      rw [List.foldlM_cons, hfirst fuel (le_of_max_le_left hfuel)]
      exact hrest fuel (le_of_max_le_right hfuel)
    · rw [hvolume', hmidVolume, tradedVolume_cons t trades, add_assoc]

/-! ## The value -/

omit [FloorRing K] in
/-- The imbalance of a bucket is a share of its volume. -/
theorem FilledBucket.imbalance_mem {bucketVolume : K} {b : VpinBucket K}
    (h : FilledBucket bucketVolume b) (hvolume : 0 < bucketVolume) :
    0 ≤ b.imbalance bucketVolume ∧ b.imbalance bucketVolume ≤ 1 := by
  have hfill := h.accounts
  have hle := h.le_volume
  have hbuy := h.buy_nonneg
  have hsell := h.sell_nonneg
  refine ⟨div_nonneg (abs_nonneg _) hvolume.le, ?_⟩
  rw [VpinBucket.imbalance, div_le_one hvolume, abs_le]
  constructor
  · linarith
  · linarith

omit [FloorRing K] in
/-- The mean of numbers between zero and one is one. -/
theorem mean_mem_unit {l : List K} (h : ∀ x ∈ l, 0 ≤ x ∧ x ≤ 1) : 0 ≤ mean l ∧ mean l ≤ 1 := by
  have hnonneg : 0 ≤ l.sum := List.sum_nonneg fun x hx => (h x hx).1
  have hle : l.sum ≤ l.length := by
    have hsum := List.sum_le_card_nsmul l 1 fun x hx => (h x hx).2
    rwa [nsmul_one] at hsum
  exact ⟨div_nonneg hnonneg (Nat.cast_nonneg _), div_le_one_of_le₀ hle (Nat.cast_nonneg _)⟩

/-- A slice from the end takes elements of the list. -/
theorem mem_of_mem_sliceFrom {α : Type} {n : ℤ} {l : List α} {a : α} (h : a ∈ sliceFrom n l) :
    a ∈ l := by
  unfold sliceFrom at h
  split at h
  · exact List.mem_of_mem_drop h
  · exact List.mem_of_mem_drop h

omit [FloorRing K] in
/-- The value of sound buckets lies between 0 and 1. -/
theorem SoundBuckets.value_mem {bucketVolume : K} {s : VpinState K}
    (h : SoundBuckets bucketVolume s) (hvolume : 0 < bucketVolume) (nBuckets : ℤ) :
    0 ≤ s.value bucketVolume nBuckets ∧ s.value bucketVolume nBuckets ≤ 1 := by
  unfold VpinState.value
  split
  · exact ⟨le_refl 0, zero_le_one⟩
  · refine mean_mem_unit ?_
    intro x hx
    obtain ⟨b, hb, rfl⟩ := List.mem_map.mp (mem_of_mem_sliceFrom hx)
    exact (h.completed b hb).imbalance_mem hvolume

/-- **VPIN.** The loop ends whatever the trades are.  What the completed buckets and the open
one hold is the total of the positive sizes; a completed bucket holds a positive volume, within
the slack of the bucket's; and the value lies between zero and one.
SOURCE: engine/features/vpin.py:15-51 -/
theorem vpin_accounts (trades : List (VpinTrade K)) (bucketVolume : K) (nBuckets : ℤ)
    (hvolume : 0 < bucketVolume) :
    ∃ s value enough,
      (∀ fuel, enough ≤ fuel → vpinBuckets fuel trades bucketVolume = some s ∧
        vpin fuel trades bucketVolume nBuckets = some value) ∧
      bucketsVolume s = tradedVolume trades ∧
      (∀ b ∈ s.completed, b.buy + b.sell = b.fill ∧ 0 < b.fill ∧
        bucketVolume - bucketSlack ≤ b.fill ∧ b.fill ≤ bucketVolume) ∧
      0 ≤ value ∧ value ≤ 1 := by
  obtain ⟨s, enough, hends, hsound, hconserved⟩ :=
    vpinBuckets_from hvolume trades (soundBuckets_init bucketVolume)
  rw [bucketsVolume_init, zero_add] at hconserved
  have hbuckets : ∀ b ∈ s.completed, b.buy + b.sell = b.fill ∧ 0 < b.fill ∧
      bucketVolume - bucketSlack ≤ b.fill ∧ b.fill ≤ bucketVolume := by
    intro b hb
    have hb := hsound.completed b hb
    exact ⟨hb.accounts, hb.fill_pos, hb.full, hb.le_volume⟩
  by_cases hearly : bucketVolume ≤ 0 ∨ nBuckets < 1 ∨ trades = []
  · refine ⟨s, 0, enough, ?_, hconserved, hbuckets, le_refl 0, zero_le_one⟩
    intro fuel hfuel
    exact ⟨hends fuel hfuel, by rw [vpin, if_pos hearly]⟩
  · refine ⟨s, s.value bucketVolume nBuckets, enough, ?_, hconserved, hbuckets,
      hsound.value_mem hvolume nBuckets⟩
    intro fuel hfuel
    refine ⟨hends fuel hfuel, ?_⟩
    rw [vpin, if_neg hearly, vpinBuckets, hends fuel hfuel]
    rfl

/-- A trade that fills two buckets and part of a third. -/
def vpinSplitTrade : List (VpinTrade ℚ) := [⟨0, 25, "buy"⟩]

/-- One trade that fills two buckets and a half. -/
theorem vpin_accounts_splitTrade :
    (0 : ℚ) < 10 ∧ ∃ s value enough,
      (∀ fuel, enough ≤ fuel → vpinBuckets fuel vpinSplitTrade 10 = some s ∧
        vpin fuel vpinSplitTrade 10 50 = some value) ∧
      bucketsVolume s = tradedVolume vpinSplitTrade ∧
      (∀ b ∈ s.completed, b.buy + b.sell = b.fill ∧ 0 < b.fill ∧
        10 - bucketSlack ≤ b.fill ∧ b.fill ≤ 10) ∧
      0 ≤ value ∧ value ≤ 1 :=
  ⟨by norm_num, vpin_accounts vpinSplitTrade 10 50 (by norm_num)⟩

end TradingEdge.Analysis
