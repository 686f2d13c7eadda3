import TradingEdge.Library.Slots
import TradingEdge.Program.LimitBookSim

/-!
# What becomes of an order in the limit book

An id names one order at a time, and it can name another after that one left.  So the book
is a set of slots: an accepted order is put into the slot of its id, and a fill, a cancel or
an expiry takes it out.  Every call replays on these slots, and with it every run.
-/

set_option autoImplicit false

namespace TradingEdge.Analysis

open TradingEdge.Model TradingEdge.Library TradingEdge.Program

variable {K : Type} [Field K] [LinearOrder K]

/-- The changes to the slots of the ids that an event reports. -/
def slotChanges : BookEvent K → List (SlotChange String (LimitOrder K))
  | .accepted o => [.put o.coid o]
  | .left o _ => [.take o.coid o]
  | _ => []

/-- The placements of an order that were accepted. -/
def placements (o : LimitOrder K) (es : List (BookEvent K)) : ℕ :=
  es.countP fun e =>
    match e with
    | .accepted p => p = o
    | _ => false

/-- The departures of an order: fills, cancels and expiries. -/
def departures (o : LimitOrder K) (es : List (BookEvent K)) : ℕ :=
  es.countP fun e =>
    match e with
    | .left p _ => p = o
    | _ => false

omit [Field K] in
/-- An order is put into its slot as often as it is placed. -/
theorem count_put_eq_placements (o : LimitOrder K) (es : List (BookEvent K)) :
    (es.flatMap slotChanges).count (.put o.coid o) = placements o es := by
  unfold placements
  induction es with
  | nil => rfl
  | cons e es ih =>
    rw [List.flatMap_cons, List.count_append, ih, List.countP_cons]
    cases e with
    | accepted p =>
      by_cases hp : p = o
      · simp [slotChanges, hp, Nat.add_comm]
      · simp [slotChanges, hp]
    | left p how => simp [slotChanges]
    | raised e => simp [slotChanges]
    | duplicate coid => simp [slotChanges]
    | filled fills => simp [slotChanges]

omit [Field K] in
/-- An order is taken from its slot as often as it departs. -/
theorem count_take_eq_departures (o : LimitOrder K) (es : List (BookEvent K)) :
    (es.flatMap slotChanges).count (.take o.coid o) = departures o es := by
  unfold departures
  induction es with
  | nil => rfl
  | cons e es ih =>
    rw [List.flatMap_cons, List.count_append, ih, List.countP_cons]
    cases e with
    | left p how =>
      by_cases hp : p = o
      · simp [slotChanges, hp, Nat.add_comm]
      · simp [slotChanges, hp]
    | accepted p => simp [slotChanges]
    | raised e => simp [slotChanges]
    | duplicate coid => simp [slotChanges]
    | filled fills => simp [slotChanges]

omit [Field K] in
/-- Taking resting orders with different ids out of the book replays. -/
theorem replay_popAll (b : LimitBook K) (gone : List (LimitOrder K))
    (how : LimitOrder K → Departure K) (hmem : ∀ o ∈ gone, b.get? o.coid = some o)
    (hnd : (gone.map (·.coid)).Nodup) :
    SlotChange.replay b.get? ((gone.map fun o => BookEvent.left o (how o)).flatMap slotChanges) =
      some (b.popAll gone).get? := by
  have hchanges : (gone.map fun o => BookEvent.left o (how o)).flatMap slotChanges =
      gone.map fun o => .take o.coid o := by
    rw [List.flatMap_map, List.map_eq_flatMap]
    rfl
  rw [hchanges, SlotChange.replay_take b.get? (·.coid) gone hmem hnd]
  congr 1
  funext k
  exact (b.get?_popAll gone k).symm

/-- A tick takes out the orders it fills, and then those it expires, which are others. -/
theorem replay_onTick (makerFeeBps : K) (b : LimitBook K) (instrumentId : String) (px ts : K) :
    SlotChange.replay b.get?
        (((b.hit instrumentId px ts).map (fun o =>
            BookEvent.left o (.fill (o.fill makerFeeBps ts))) ++
          (b.expired instrumentId ts).map fun o => BookEvent.left o .ttl).flatMap slotChanges) =
      some (b.onTick makerFeeBps instrumentId px ts).1.get? := by
  have hhit : ∀ o ∈ b.hit instrumentId px ts, b.get? o.coid = some o := by
    intro o ho
    exact ((b.mem_hit_iff _ _ _ o).mp ho).1
  have hhitnd : ((b.hit instrumentId px ts).map (·.coid)).Nodup :=
    (b.nodup_fifo instrumentId).sublist (List.filter_sublist.map _)
  have hexp : ∀ o ∈ b.expired instrumentId ts,
      (b.popAll (b.hit instrumentId px ts)).get? o.coid = some o := by
    intro o ho
    obtain ⟨hget, -, hold⟩ := (b.mem_expired_iff _ _ o).mp ho
    have hnot : o.coid ∉ (b.hit instrumentId px ts).map (·.coid) := by
      intro hin
      obtain ⟨p, hp, hcoid⟩ := List.mem_map.mp hin
      obtain ⟨hpget, -, hyoung, -⟩ := (b.mem_hit_iff _ _ _ p).mp hp
      rw [hcoid, hget] at hpget
      obtain rfl := Option.some.inj hpget
      exact hyoung hold
    rw [b.get?_popAll, if_neg hnot, hget]
  have hexpnd : ((b.expired instrumentId ts).map (·.coid)).Nodup :=
    (b.nodup_fifo instrumentId).sublist (List.filter_sublist.map _)
  rw [List.flatMap_append, SlotChange.replay_append,
    replay_popAll b _ (fun o => .fill (o.fill makerFeeBps ts)) hhit hhitnd, Option.bind_some,
    replay_popAll _ _ (fun _ => .ttl) hexp hexpnd]
  rfl

/-- **One call replays on the slots.** -/
theorem replay_bookStep (makerFeeBps : K) (b : LimitBook K) (call : BookCall K) :
    SlotChange.replay b.get? (((bookMachine makerFeeBps).emits b call).flatMap slotChanges) =
      some ((bookMachine makerFeeBps).next b call).get? := by
  change SlotChange.replay b.get? ((bookStep makerFeeBps b call).2.flatMap slotChanges) =
    some (bookStep makerFeeBps b call).1.get?
  cases call with
  | place o =>
    rw [bookStep]
    rcases hplace : b.place o with e | ⟨b', taken⟩
    · rfl
    · cases taken with
      | true =>
        obtain ⟨-, hfree, hget⟩ := b.place_true b' o hplace
        have hb' : Function.update b.get? o.coid (some o) = b'.get? := by
          funext k
          rw [hget, Function.update_apply]
        simp [slotChanges, SlotChange.replay, SlotChange.apply, hfree, hb']
      | false =>
        obtain ⟨-, rfl⟩ := b.place_false b' o hplace
        rfl
  | cancel coid =>
    have hpop : (b.pop coid).get? = (b.popAll (b.get? coid).toList).get? := by
      funext k
      rw [b.get?_pop, b.get?_popAll]
      cases hget : b.get? coid with
      | none =>
        by_cases hk : k = coid
        · simp [hk, hget]
        · simp [hk]
      | some o => simp [b.coid_of_get? hget]
    have hmem : ∀ o ∈ (b.get? coid).toList, b.get? o.coid = some o := by
      intro o ho
      rw [Option.mem_toList] at ho
      rw [b.coid_of_get? ho]
      exact ho
    have hnd : ((b.get? coid).toList.map (·.coid)).Nodup := by
      cases b.get? coid with
      | none => exact List.nodup_nil
      | some o => exact List.nodup_singleton _
    simp only [bookStep, LimitBook.cancel]
    rw [hpop]
    exact replay_popAll b _ (fun _ => .cancel) hmem hnd
  | cancelAll f =>
    have hmem : ∀ o ∈ b.snapshot.filter (fun o => f.Admits o), b.get? o.coid = some o := by
      intro o ho
      exact (b.mem_snapshot_iff o).mp (List.mem_of_mem_filter ho)
    exact replay_popAll b _ (fun _ => .cancel) hmem
      (b.nodup_coids.sublist (List.filter_sublist.map _))
  | onTick instrumentId px ts =>
    simp only [bookStep]
    rw [List.flatMap_append, SlotChange.replay_append, replay_onTick makerFeeBps b]
    rfl

instance : Std.Total fun o p : LimitOrder K => o.tsPlaced ≤ p.tsPlaced :=
  ⟨fun o p => le_total o.tsPlaced p.tsPlaced⟩

instance : IsTrans (LimitOrder K) fun o p => o.tsPlaced ≤ p.tsPlaced :=
  ⟨fun _ _ _ hop hpq => le_trans hop hpq⟩

/-- What a tick of the matcher has to do with the book it meets. -/
structure TickAccount (makerFeeBps : K) (b : LimitBook K) (instrumentId : String) (px ts : K)
    (after : LimitBook K) (fills : List (LimitFill K)) : Prop where
  /-- It fills the live orders of its instrument that the price crosses, and no others. -/
  fills_iff : ∀ f, f ∈ fills ↔ ∃ o, b.get? o.coid = some o ∧ o.instrumentId = instrumentId ∧
    ¬o.ExpiredAt ts ∧ o.Crossed px ∧ f = o.fill makerFeeBps ts
  /-- Each of them once. -/
  nodup : (fills.map (·.coid)).Nodup
  /-- At the limit price and for the whole quantity. -/
  in_full : ∀ f ∈ fills, ∀ o, b.get? f.coid = some o → f.price = o.price ∧ f.qty = o.qty
  /-- First placed, first filled. -/
  fifo : fills.Pairwise fun f g => ∀ o p, b.get? f.coid = some o → b.get? g.coid = some p →
    o.tsPlaced ≤ p.tsPlaced
  /-- Orders placed at the same time are filled in the order of the book. -/
  ties : ∀ o p, [o, p].Sublist b.snapshot → o.tsPlaced ≤ p.tsPlaced →
    o ∈ b.hit instrumentId px ts → p ∈ b.hit instrumentId px ts →
    [o.fill makerFeeBps ts, p.fill makerFeeBps ts].Sublist fills
  /-- The expired and the filled orders are gone, the expired ones even if crossed. -/
  gone : ∀ coid o, b.get? coid = some o → o.instrumentId = instrumentId →
    (o.ExpiredAt ts ∨ o.Crossed px) → after.get? coid = none
  /-- Everything else is as it was. -/
  untouched : ∀ coid, (∀ o, b.get? coid = some o → o.instrumentId ≠ instrumentId ∨
    (¬o.ExpiredAt ts ∧ ¬o.Crossed px)) → after.get? coid = b.get? coid

/-- The tick keeps its account.
SOURCE: paper/limit_book_sim.py:202-259 -/
theorem tickAccount_onTick (makerFeeBps : K) (b : LimitBook K) (instrumentId : String)
    (px ts : K) :
    TickAccount makerFeeBps b instrumentId px ts
      (b.onTick makerFeeBps instrumentId px ts).1
      (b.onTick makerFeeBps instrumentId px ts).2 where
  fills_iff := by
    intro f
    rw [LimitBook.onTick, List.mem_map]
    constructor
    · rintro ⟨o, ho, rfl⟩
      obtain ⟨hget, hinst, hlive, hcross⟩ := (b.mem_hit_iff _ _ _ o).mp ho
      exact ⟨o, hget, hinst, hlive, hcross, rfl⟩
    · rintro ⟨o, hget, hinst, hlive, hcross, rfl⟩
      exact ⟨o, (b.mem_hit_iff _ _ _ o).mpr ⟨hget, hinst, hlive, hcross⟩, rfl⟩
  nodup := by
    rw [LimitBook.onTick, List.map_map]
    exact (b.nodup_fifo instrumentId).sublist (List.filter_sublist.map _)
  in_full := by
    intro f hf o hget
    obtain ⟨p, hp, rfl⟩ := List.mem_map.mp hf
    obtain ⟨hpget, -⟩ := (b.mem_hit_iff _ _ _ p).mp hp
    change b.get? p.coid = some o at hget
    rw [hpget] at hget
    obtain rfl := Option.some.inj hget
    exact ⟨rfl, rfl⟩
  fifo := by
    have hfifo : (b.fifo instrumentId).Pairwise fun o p => o.tsPlaced ≤ p.tsPlaced :=
      List.pairwise_insertionSort _ _
    have hhit : (b.hit instrumentId px ts).Pairwise fun o p => o.tsPlaced ≤ p.tsPlaced :=
      hfifo.sublist List.filter_sublist
    rw [LimitBook.onTick, List.pairwise_map]
    refine hhit.imp_of_mem ?_
    intro o p ho hp hle o' p' ho' hp'
    have hoget := ((b.mem_hit_iff _ _ _ o).mp ho).1
    have hpget := ((b.mem_hit_iff _ _ _ p).mp hp).1
    change b.get? o.coid = some o' at ho'
    change b.get? p.coid = some p' at hp'
    rw [hoget] at ho'
    rw [hpget] at hp'
    obtain rfl := Option.some.inj ho'
    obtain rfl := Option.some.inj hp'
    exact hle
  ties := by
    intro o p hbefore hle ho hp
    have hinst : ∀ q ∈ [o, p], decide (q.instrumentId = instrumentId) = true := by
      intro q hq
      rcases List.mem_pair.mp hq with rfl | rfl
      · exact decide_eq_true ((b.mem_hit_iff _ _ _ q).mp ho).2.1
      · exact decide_eq_true ((b.mem_hit_iff _ _ _ q).mp hp).2.1
    have hfilter := hbefore.filter fun q => decide (q.instrumentId = instrumentId)
    rw [List.filter_eq_self.mpr hinst] at hfilter
    have hsort : [o, p].Sublist (b.fifo instrumentId) :=
      List.pair_sublist_insertionSort hle hfilter
    have hlive := hsort.filter fun q => decide (¬q.ExpiredAt ts ∧ q.Crossed px)
    have hboth : ∀ q ∈ [o, p], decide (¬q.ExpiredAt ts ∧ q.Crossed px) = true := by
      intro q hq
      rcases List.mem_pair.mp hq with rfl | rfl
      · exact decide_eq_true ((b.mem_hit_iff _ _ _ q).mp ho).2.2
      · exact decide_eq_true ((b.mem_hit_iff _ _ _ q).mp hp).2.2
    rw [List.filter_eq_self.mpr hboth] at hlive
    exact hlive.map fun q => q.fill makerFeeBps ts
  gone := by
    intro coid o hget hinst hout
    rw [b.get?_onTick, hget, Option.filter_some, if_neg (by simp [hinst, hout])]
  untouched := by
    intro coid h
    rw [b.get?_onTick]
    cases hget : b.get? coid with
    | none => rfl
    | some o =>
      have hkept : ¬(o.instrumentId = instrumentId ∧ (o.ExpiredAt ts ∨ o.Crossed px)) := by
        rcases h o hget with hinst | ⟨hlive, hout⟩
        · exact fun hc => hinst hc.1
        · exact fun hc => hc.2.elim hlive hout
      rw [Option.filter_some, if_pos (decide_eq_true hkept)]

/-- What a call has to be for an order to leave the book in a given way. -/
def CausesDeparture (makerFeeBps : K) (call : BookCall K) (o : LimitOrder K) :
    Departure K → Prop
  | .cancel => call = .cancel o.coid ∨ ∃ f : CancelFilter, call = .cancelAll f ∧ f.Admits o
  | .ttl => ∃ px ts, call = .onTick o.instrumentId px ts ∧ o.ExpiredAt ts
  | .fill f => ∃ px ts, call = .onTick o.instrumentId px ts ∧ ¬o.ExpiredAt ts ∧ o.Crossed px ∧
      f = o.fill makerFeeBps ts

/-- A call is a cause of one departure of an order at most: an expired order is not filled. -/
theorem CausesDeparture.unique {makerFeeBps : K} {call : BookCall K} {o : LimitOrder K}
    {how how' : Departure K} (h : CausesDeparture makerFeeBps call o how)
    (h' : CausesDeparture makerFeeBps call o how') : how = how' := by
  cases how with
  | cancel =>
    cases how' with
    | cancel => rfl
    | ttl =>
      obtain ⟨px, ts, rfl, -⟩ := h'
      rcases h with h | ⟨f, h, -⟩ <;> cases h
    | fill f =>
      obtain ⟨px, ts, rfl, -⟩ := h'
      rcases h with h | ⟨f, h, -⟩ <;> cases h
  | ttl =>
    obtain ⟨px, ts, rfl, hold⟩ := h
    cases how' with
    | cancel => rcases h' with h' | ⟨f, h', -⟩ <;> cases h'
    | ttl => rfl
    | fill f =>
      obtain ⟨px', ts', heq, hlive, -⟩ := h'
      obtain ⟨-, -, rfl⟩ := BookCall.onTick.inj heq
      exact absurd hold hlive
  | fill f =>
    obtain ⟨px, ts, rfl, hlive, -, rfl⟩ := h
    cases how' with
    | cancel => rcases h' with h' | ⟨f, h', -⟩ <;> cases h'
    | ttl =>
      obtain ⟨px', ts', heq, hold⟩ := h'
      obtain ⟨-, -, rfl⟩ := BookCall.onTick.inj heq
      exact absurd hold hlive
    | fill f' =>
      obtain ⟨px', ts', heq, -, -, rfl⟩ := h'
      obtain ⟨-, -, rfl⟩ := BookCall.onTick.inj heq
      rfl

/-- **How orders leave.** A call reports the departure of an order exactly if the order rests
and the call is a cause of that departure. -/
theorem left_mem_emits_iff (makerFeeBps : K) (b : LimitBook K) (call : BookCall K)
    (o : LimitOrder K) (how : Departure K) :
    .left o how ∈ (bookMachine makerFeeBps).emits b call ↔
      b.get? o.coid = some o ∧ CausesDeparture makerFeeBps call o how := by
  change .left o how ∈ (bookStep makerFeeBps b call).2 ↔ _
  cases call with
  | place p =>
    have hnone : BookEvent.left o how ∉ (bookStep makerFeeBps b (.place p)).2 := by
      rw [bookStep]
      rcases b.place p with e | ⟨b', taken⟩
      · simp
      · cases taken <;> simp
    cases how <;> simp [hnone, CausesDeparture]
  | cancel coid =>
    simp only [bookStep, LimitBook.cancel, List.mem_map, Option.mem_toList]
    cases how with
    | cancel =>
      constructor
      · rintro ⟨p, hp, heq⟩
        obtain rfl : p = o := (BookEvent.left.inj heq).1
        obtain rfl := b.coid_of_get? hp
        exact ⟨hp, Or.inl rfl⟩
      · rintro ⟨hget, hcall | ⟨f, hcall, -⟩⟩
        · obtain rfl := BookCall.cancel.inj hcall
          exact ⟨o, hget, rfl⟩
        · cases hcall
    | fill f => simp [CausesDeparture]
    | ttl => simp [CausesDeparture]
  | cancelAll f =>
    simp only [bookStep, LimitBook.cancelAll, List.mem_map, List.mem_filter,
      b.mem_snapshot_iff, decide_eq_true_eq]
    cases how with
    | cancel =>
      constructor
      · rintro ⟨p, ⟨hp, hadm⟩, heq⟩
        obtain rfl : p = o := (BookEvent.left.inj heq).1
        exact ⟨hp, Or.inr ⟨f, rfl, hadm⟩⟩
      · rintro ⟨hget, hcall | ⟨f', hcall, hadm⟩⟩
        · cases hcall
        · obtain rfl := BookCall.cancelAll.inj hcall
          exact ⟨o, ⟨hget, hadm⟩, rfl⟩
    | fill f => simp [CausesDeparture]
    | ttl => simp [CausesDeparture]
  | onTick instrumentId px ts =>
    simp only [bookStep, List.mem_append, List.mem_map, List.mem_singleton, reduceCtorEq,
      or_false, b.mem_hit_iff, b.mem_expired_iff]
    cases how with
    | cancel => simp [CausesDeparture]
    | ttl =>
      constructor
      · rintro (⟨p, -, heq⟩ | ⟨p, ⟨hp, hinst, hold⟩, heq⟩)
        · cases heq
        · obtain rfl : p = o := (BookEvent.left.inj heq).1
          exact ⟨hp, px, ts, hinst ▸ rfl, hold⟩
      · rintro ⟨hget, px', ts', hcall, hold⟩
        obtain ⟨hinst, rfl, rfl⟩ := BookCall.onTick.inj hcall
        exact Or.inr ⟨o, ⟨hget, hinst.symm, hold⟩, rfl⟩
    | fill f =>
      constructor
      · rintro (⟨p, ⟨hp, hinst, hlive, hcross⟩, heq⟩ | ⟨p, -, heq⟩)
        · obtain ⟨rfl, hf⟩ := BookEvent.left.inj heq
          exact ⟨hp, px, ts, hinst ▸ rfl, hlive, hcross, (Departure.fill.inj hf).symm⟩
        · cases heq
      · rintro ⟨hget, px', ts', hcall, hlive, hcross, rfl⟩
        obtain ⟨hinst, rfl, rfl⟩ := BookCall.onTick.inj hcall
        exact Or.inl ⟨o, ⟨hget, hinst.symm, hlive, hcross⟩, rfl⟩

/-- **The accounts of the limit book.** After any calls, the book is the replay of the log on
empty slots, so an order rests exactly when it was accepted once more than it left; the next
call takes an order out only for the one reason that applies to it, and a tick of the matcher
fills, expires and leaves alone what it has to.
SOURCE: paper/limit_book_sim.py:129-259 -/
theorem limit_book_accounts (makerFeeBps : K) (calls : List (BookCall K)) :
    let m := bookMachine makerFeeBps
    let b := m.final LimitBook.empty calls
    let es := m.trace LimitBook.empty calls
    SlotChange.replay (fun _ => none) (es.flatMap slotChanges) = some b.get? ∧
      (∀ o, placements o es = departures o es + if b.get? o.coid = some o then 1 else 0) ∧
      (∀ call o how, .left o how ∈ m.emits b call ↔
        b.get? o.coid = some o ∧ CausesDeparture makerFeeBps call o how) ∧
      ∀ instrumentId px ts, ∃ fills,
        (m.emits b (.onTick instrumentId px ts)).getLast? = some (.filled fills) ∧
        TickAccount makerFeeBps b instrumentId px ts
          (m.next b (.onTick instrumentId px ts)) fills := by
  intro m b es
  have hreplay : SlotChange.replay (fun _ => none) (es.flatMap slotChanges) = some b.get? :=
    m.replay_trace LimitBook.get? slotChanges (replay_bookStep makerFeeBps) LimitBook.empty calls
  refine ⟨hreplay, ?_, left_mem_emits_iff makerFeeBps b, ?_⟩
  · intro o
    have hcount := SlotChange.count_put_eq _ _ _ hreplay o.coid o
    rw [count_put_eq_placements, count_take_eq_departures] at hcount
    simpa using hcount
  · intro instrumentId px ts
    refine ⟨(b.onTick makerFeeBps instrumentId px ts).2, ?_,
      tickAccount_onTick makerFeeBps b instrumentId px ts⟩
    exact List.getLast?_concat

end TradingEdge.Analysis
