import TradingEdge.Analysis.LimitBookAccounting
import TradingEdge.Program.OrderStatements

/-!
# The stored status of an order

An order is inserted as `NEW` by one coroutine and updated by another, and nothing makes the
update wait for the insert.  An update that finds no row changes nothing, and the insert that
comes after it leaves a row that says `NEW` for good.

The invariant `Persisted` says, of every order that was accepted, how its row, the statements
still in flight and what happened to it in memory belong together.  It is kept by every step
that runs an update only after the insert of the same order and places no id twice.
-/

set_option autoImplicit false

namespace TradingEdge.Analysis

open TradingEdge.Model TradingEdge.Library TradingEdge.Program

variable {K : Type}

/-- The status of an order that left the book. -/
def status : Departure K → OrderStatus
  | .fill _ => .filled
  | .cancel => .cancelled
  | .ttl => .cancelled

/-- No departure leaves an order new. -/
theorem status_ne_new (how : Departure K) : status how ≠ .new := by
  cases how <;> simp [status]

/-- The order whose row a statement inserts. -/
def insertedId : Statement K → Option String
  | .insertOrder row => some row.orderId
  | _ => none

/-- The order whose row a statement updates. -/
def updatedId : Statement K → Option String
  | .cancelOrder orderId _ _ => some orderId
  | .fillOrder orderId _ => some orderId
  | _ => none

/-- The statement with which the departure of an order is stored. -/
def updateOf (o : LimitOrder K) : Departure K → Statement K
  | .fill f => .fillOrder o.coid f.ts
  | .cancel => o.persistCancel false
  | .ttl => o.persistCancel true

/-- A departure updates the row of its order. -/
@[simp] theorem updatedId_updateOf (o : LimitOrder K) (how : Departure K) :
    updatedId (updateOf o how) = some o.coid := by
  cases how <;> rfl

/-- The statements in flight. -/
def inFlight (s : BookStore K) : List (Statement K) := s.pending.flatten

/-- The table has the right row for every accepted order. -/
def StatusFollows (es : List (BookEvent K)) (b : LimitBook K)
    (orders : Table (StoredOrder.key (K := K))) : Prop :=
  ∀ o, .accepted o ∈ es → ∃ row ∈ orders.rows, row.key = (o.coid, o.tsPlaced) ∧
    ((∃ f, .left o (.fill f) ∈ es) → row.status = .filled) ∧
    ((.left o .cancel ∈ es ∨ .left o .ttl ∈ es) → row.status = .cancelled) ∧
    (row.status = .new → b.get? o.coid = some o)

/-- The database knows an id: it has a row for it, or the insert of one is in flight. -/
def Known (s : BookStore K) (coid : String) : Prop :=
  some coid ∈ (inFlight s).map insertedId ∨ coid ∈ s.orders.rows.map (·.orderId)

/-- A step does not place a known id anew, and updates no row whose insert is in flight. -/
def InOrder (s : BookStore K) : StoreLabel K → Prop
  | .call (.place o) => Known s o.coid → (s.book.get? o.coid).isSome = true
  | .call _ => True
  | .execute i _ => ∀ st ∈ (s.pending[i]?).bind List.head?, ∀ coid ∈ updatedId st,
      some coid ∉ (inFlight s).map insertedId

instance (s : BookStore K) (coid : String) : Decidable (Known s coid) :=
  inferInstanceAs (Decidable (_ ∨ _))

instance (s : BookStore K) (l : StoreLabel K) : Decidable (InOrder s l) :=
  match l with
  | .call (.place _) => inferInstanceAs (Decidable (_ → _))
  | .call (.cancel _) => inferInstanceAs (Decidable True)
  | .call (.cancelAll _) => inferInstanceAs (Decidable True)
  | .call (.onTick _ _ _) => inferInstanceAs (Decidable True)
  | .execute i _ => inferInstanceAs (Decidable (∀ st ∈ (s.pending[i]?).bind List.head?, _))

/-- How the memory, the statements in flight and the table belong together. -/
structure Persisted (es : List (BookEvent K)) (s : BookStore K) : Prop where
  resting : ∀ coid o, s.book.get? coid = some o → .accepted o ∈ es
  unique : ∀ o p, .accepted o ∈ es → .accepted p ∈ es → o.coid = p.coid → o = p
  left_gone : ∀ o how, .left o how ∈ es → .accepted o ∈ es ∧ s.book.get? o.coid = none
  left_once : ∀ o how how', .left o how ∈ es → .left o how' ∈ es → how = how'
  rests_or_left : ∀ o, .accepted o ∈ es → s.book.get? o.coid = some o ∨ ∃ how, .left o how ∈ es
  known : ∀ o, .accepted o ∈ es → Known s o.coid
  inserts : ∀ row, .insertOrder row ∈ inFlight s →
    (∃ o, .accepted o ∈ es ∧ row = o.newRow) ∧ row.orderId ∉ s.orders.rows.map (·.orderId)
  inserts_once : ((inFlight s).filterMap insertedId).Nodup
  updates : ∀ st ∈ inFlight s, (updatedId st).isSome = true →
    ∃ o how, .left o how ∈ es ∧ st = updateOf o how
  rows : ∀ o, .accepted o ∈ es → ∀ row ∈ s.orders.rows, row.orderId = o.coid →
    row.tsSubmit = o.tsPlaced ∧
      (row.status = .new ∨ ∃ how, .left o how ∈ es ∧ status how = row.status)
  owed : ∀ o how, .left o how ∈ es → updateOf o how ∈ inFlight s ∨
    ∃ row ∈ s.orders.rows, row.orderId = o.coid ∧ row.status = status how

/-- Once nothing is in flight, the table has the right rows. -/
theorem Persisted.statusFollows {es : List (BookEvent K)} {s : BookStore K}
    (h : Persisted es s) (hquiet : inFlight s = []) : StatusFollows es s.book s.orders := by
  intro o ho
  have hrow : ∃ row ∈ s.orders.rows, row.orderId = o.coid := by
    rcases h.known o ho with hflight | hrow
    · simp [hquiet] at hflight
    · exact List.mem_map.mp hrow
  obtain ⟨row, hrow, hid⟩ := hrow
  obtain ⟨hts, hstatus⟩ := h.rows o ho row hrow hid
  have hleft : ∀ how, .left o how ∈ es → row.status = status how := by
    intro how hhow
    rcases h.owed o how hhow with hflight | ⟨row', hrow', hid', hst⟩
    · simp [hquiet] at hflight
    · have hts' := (h.rows o ho row' hrow' hid').1
      have hkey : row.key = row'.key := by
        simp only [StoredOrder.key, hid, hid', hts, hts']
      obtain rfl := List.inj_on_of_nodup_map s.orders.nodup_keys hrow hrow' hkey
      exact hst
  refine ⟨row, hrow, by rw [StoredOrder.key, hid, hts], ?_, ?_, ?_⟩
  · rintro ⟨f, hf⟩
    exact hleft _ hf
  · rintro (hc | ht)
    · exact hleft _ hc
    · exact hleft _ ht
  · intro hnew
    rcases h.rests_or_left o ho with hrest | ⟨how, hhow⟩
    · exact hrest
    · exact absurd ((hleft how hhow).symm.trans hnew) (status_ne_new how)

/-- A store over any tables in which nothing was accepted yet. -/
theorem persisted_init (orders : Table (StoredOrder.key (K := K)))
    (fills : Table (StoredFill.key (K := K))) : Persisted [] (BookStore.init orders fills) where
  resting := by
    intro coid o h
    cases h
  unique := by simp
  left_gone := by simp
  left_once := by simp
  rests_or_left := by simp
  known := by simp
  inserts := by simp [inFlight, BookStore.init]
  inserts_once := by simp [inFlight, BookStore.init]
  updates := by simp [inFlight, BookStore.init]
  rows := by simp
  owed := by simp

section Calls

variable [Field K] [LinearOrder K]

/-- The order a call accepts, its one event, its statement and the book it leaves. -/
theorem call_of_accepted (makerFeeBps : K) (b : LimitBook K) (call : BookCall K)
    (o : LimitOrder K) (h : .accepted o ∈ (bookMachine makerFeeBps).emits b call) :
    call = .place o ∧ b.get? o.coid = none ∧
      (bookMachine makerFeeBps).emits b call = [.accepted o] ∧
      persist makerFeeBps b call = [.insertOrder o.newRow] ∧
      ∀ k, ((bookMachine makerFeeBps).next b call).get? k =
        if k = o.coid then some o else b.get? k := by
  change .accepted o ∈ (bookStep makerFeeBps b call).2 at h
  change _ ∧ _ ∧ (bookStep makerFeeBps b call).2 = _ ∧ _ ∧
    ∀ k, (bookStep makerFeeBps b call).1.get? k = _
  cases call with
  | place p =>
    simp only [bookStep, persist] at h ⊢
    rcases hplace : b.place p with e | ⟨b', taken⟩
    · rw [hplace] at h
      simp at h
    · rw [hplace] at h
      cases taken with
      | true =>
        obtain rfl : o = p := by simpa using h
        obtain ⟨-, hfree, hget⟩ := b.place_true b' o hplace
        exact ⟨rfl, hfree, rfl, rfl, hget⟩
      | false => simp at h
  | cancel coid => simp [bookStep] at h
  | cancelAll f => simp [bookStep] at h
  | onTick instrumentId px ts => simp [bookStep] at h

/-- The inserts of a call are those of the orders it accepts. -/
theorem inserted_mem_persist_iff (makerFeeBps : K) (b : LimitBook K) (call : BookCall K)
    (row : StoredOrder K) :
    .insertOrder row ∈ persist makerFeeBps b call ↔
      ∃ o, .accepted o ∈ (bookMachine makerFeeBps).emits b call ∧ row = o.newRow := by
  change _ ↔ ∃ o, .accepted o ∈ (bookStep makerFeeBps b call).2 ∧ row = o.newRow
  cases call with
  | place p =>
    simp only [bookStep, persist]
    rcases b.place p with e | ⟨b', taken⟩
    · simp
    · cases taken <;> simp
  | cancel coid => simp [bookStep, persist, LimitOrder.persistCancel]
  | cancelAll f => simp [bookStep, persist, LimitOrder.persistCancel]
  | onTick instrumentId px ts =>
    by_cases hfills : (b.onTick makerFeeBps instrumentId px ts).2 = []
    · simp [bookStep, persist, LimitOrder.persistCancel, persistFills, hfills]
    · simp [bookStep, persist, LimitOrder.persistCancel, persistFills, hfills]

/-- The updates of a call are those of the orders that leave the book in it. -/
theorem update_mem_persist_iff (makerFeeBps : K) (b : LimitBook K) (call : BookCall K)
    (st : Statement K) (hst : (updatedId st).isSome = true) :
    st ∈ persist makerFeeBps b call ↔
      ∃ o how, .left o how ∈ (bookMachine makerFeeBps).emits b call ∧ st = updateOf o how := by
  change _ ↔ ∃ o how, .left o how ∈ (bookStep makerFeeBps b call).2 ∧ st = updateOf o how
  cases call with
  | place p =>
    have hinsert : st ≠ .insertOrder p.newRow := by
      rintro rfl
      cases hst
    simp only [bookStep, persist]
    rcases b.place p with e | ⟨b', taken⟩
    · simp
    · cases taken <;> simp [hinsert]
  | cancel k =>
    simp only [bookStep, persist, LimitBook.cancel, List.mem_map]
    constructor
    · rintro ⟨o, ho, rfl⟩
      exact ⟨o, .cancel, ⟨o, ho, rfl⟩, rfl⟩
    · rintro ⟨o, how, ⟨p, hp, heq⟩, rfl⟩
      obtain ⟨rfl, rfl⟩ := BookEvent.left.inj heq
      exact ⟨p, hp, rfl⟩
  | cancelAll f =>
    simp only [bookStep, persist, LimitBook.cancelAll, List.mem_map]
    constructor
    · rintro ⟨o, ho, rfl⟩
      exact ⟨o, .cancel, ⟨o, ho, rfl⟩, rfl⟩
    · rintro ⟨o, how, ⟨p, hp, heq⟩, rfl⟩
      obtain ⟨rfl, rfl⟩ := BookEvent.left.inj heq
      exact ⟨p, hp, rfl⟩
  | onTick instrumentId px ts =>
    have hfills : st ∈ persistFills (b.onTick makerFeeBps instrumentId px ts).2 ↔
        ∃ o ∈ b.hit instrumentId px ts, st = .fillOrder o.coid ts := by
      unfold persistFills
      split
      · rename_i hempty
        have hnil : b.hit instrumentId px ts = [] := by
          simpa [LimitBook.onTick] using hempty
        simp [hnil]
      · have hrows : st ≠ .insertFills (b.onTick makerFeeBps instrumentId px ts).2 := by
          rintro rfl
          cases hst
        simp [LimitBook.onTick, LimitOrder.fill, eq_comm] at hrows ⊢
        simp [hrows]
    simp only [bookStep, persist, List.mem_append, hfills, List.mem_map, List.mem_singleton,
      reduceCtorEq, or_false]
    constructor
    · rintro (⟨o, ho, rfl⟩ | ⟨o, ho, rfl⟩)
      · exact ⟨o, .ttl, Or.inr ⟨o, ho, rfl⟩, rfl⟩
      · exact ⟨o, _, Or.inl ⟨o, ho, rfl⟩, rfl⟩
    · rintro ⟨o, how, ⟨p, hp, heq⟩ | ⟨p, hp, heq⟩, rfl⟩
      · obtain ⟨rfl, rfl⟩ := BookEvent.left.inj heq
        exact Or.inr ⟨p, hp, rfl⟩
      · obtain ⟨rfl, rfl⟩ := BookEvent.left.inj heq
        exact Or.inl ⟨p, hp, rfl⟩

/-- What a call that accepts nothing does to the book: orders only leave, each in one way. -/
theorem call_of_not_accepted (makerFeeBps : K) (b : LimitBook K) (call : BookCall K)
    (h : ∀ o, .accepted o ∉ (bookMachine makerFeeBps).emits b call) :
    (∀ k o, ((bookMachine makerFeeBps).next b call).get? k = some o → b.get? k = some o) ∧
      (∀ o how, .left o how ∈ (bookMachine makerFeeBps).emits b call →
        b.get? o.coid = some o ∧ ((bookMachine makerFeeBps).next b call).get? o.coid = none) ∧
      (∀ k o, b.get? k = some o → ((bookMachine makerFeeBps).next b call).get? k = some o ∨
        ∃ how, .left o how ∈ (bookMachine makerFeeBps).emits b call) ∧
      ∀ o how how', .left o how ∈ (bookMachine makerFeeBps).emits b call →
        .left o how' ∈ (bookMachine makerFeeBps).emits b call → how = how' := by
  have hreplay := replay_bookStep makerFeeBps b call
  have hput : ∀ k o, SlotChange.put k o ∉
      ((bookMachine makerFeeBps).emits b call).flatMap slotChanges := by
    intro k o hmem
    obtain ⟨e, he, hchange⟩ := List.mem_flatMap.mp hmem
    cases e with
    | accepted p =>
      obtain ⟨-, rfl⟩ := SlotChange.put.inj (List.mem_singleton.mp hchange)
      exact h o he
    | left p how => simp [slotChanges] at hchange
    | raised e => simp [slotChanges] at hchange
    | duplicate coid => simp [slotChanges] at hchange
    | filled fills => simp [slotChanges] at hchange
  have hkeep : ∀ k o, ((bookMachine makerFeeBps).next b call).get? k = some o →
      b.get? k = some o := by
    intro k o hget
    exact (SlotChange.eq_some_or_put_mem _ _ _ hreplay k o hget).resolve_right (hput k o)
  refine ⟨hkeep, ?_, ?_, ?_⟩
  · intro o how hleft
    obtain ⟨hget, -⟩ := (left_mem_emits_iff makerFeeBps b call o how).mp hleft
    have htake : SlotChange.take o.coid o ∈
        ((bookMachine makerFeeBps).emits b call).flatMap slotChanges :=
      List.mem_flatMap.mpr ⟨_, hleft, List.mem_singleton_self _⟩
    have hne := SlotChange.ne_some_of_take_mem _ _ _ hreplay o.coid o htake (hput _ _)
    refine ⟨hget, ?_⟩
    cases hnext : ((bookMachine makerFeeBps).next b call).get? o.coid with
    | none => rfl
    | some p =>
      have hp := hkeep o.coid p hnext
      rw [hget] at hp
      exact absurd (hnext.trans hp.symm) hne
  · intro k o hget
    rcases SlotChange.eq_some_or_take_mem _ _ _ hreplay k o hget with hstay | htake
    · exact Or.inl hstay
    · obtain ⟨e, he, hchange⟩ := List.mem_flatMap.mp htake
      cases e with
      | left p how =>
        obtain ⟨-, rfl⟩ := SlotChange.take.inj (List.mem_singleton.mp hchange)
        exact Or.inr ⟨how, he⟩
      | accepted p => exact absurd he (h p)
      | raised e => simp [slotChanges] at hchange
      | duplicate coid => simp [slotChanges] at hchange
      | filled fills => simp [slotChanges] at hchange
  · intro o how how' hleft hleft'
    obtain ⟨-, hcause⟩ := (left_mem_emits_iff makerFeeBps b call o how).mp hleft
    obtain ⟨-, hcause'⟩ := (left_mem_emits_iff makerFeeBps b call o how').mp hleft'
    exact hcause.unique hcause'

/-- What is in flight after a call: what was, and the statements of the call. -/
theorem inFlight_call (makerFeeBps : K) (s : BookStore K) (call : BookCall K) :
    inFlight ((storeMachine makerFeeBps).next s (.call call)) =
      inFlight s ++ persist makerFeeBps s.book call := by
  change (s.pending ++ [persist makerFeeBps s.book call]).flatten = _
  rw [List.flatten_append, List.flatten_singleton]
  rfl

/-- What the database knew it knows after a call. -/
theorem known_call (makerFeeBps : K) (s : BookStore K) (call : BookCall K) (coid : String)
    (h : Known s coid) : Known ((storeMachine makerFeeBps).next s (.call call)) coid := by
  rw [Known, inFlight_call makerFeeBps s call, List.map_append, List.mem_append]
  exact h.imp Or.inl id

/-- A call that accepts an order keeps the invariant if the database does not know the id. -/
theorem persisted_accept (makerFeeBps : K) (es : List (BookEvent K)) (s : BookStore K)
    (call : BookCall K) (o : LimitOrder K) (h : Persisted es s)
    (horder : InOrder s (.call call))
    (ho : .accepted o ∈ (bookMachine makerFeeBps).emits s.book call) :
    Persisted (es ++ (bookMachine makerFeeBps).emits s.book call)
      ((storeMachine makerFeeBps).next s (.call call)) := by
  have hflight := inFlight_call makerFeeBps s call
  have hknown := known_call makerFeeBps s call
  obtain ⟨rfl, hfree, hemits, hpersist, hget⟩ := call_of_accepted makerFeeBps s.book call o ho
  -- the id is new to the database, so no accepted order has it
  have hnew : ¬Known s o.coid := by
    intro hk
    have hheld := horder hk
    rw [hfree] at hheld
    cases hheld
  have hother : ∀ p, .accepted p ∈ es → p.coid ≠ o.coid := by
    intro p hp heq
    exact hnew (heq ▸ h.known p hp)
  have hnext : ∀ k, ((storeMachine makerFeeBps).next s (.call (.place o))).book.get? k =
      if k = o.coid then some o else s.book.get? k := hget
  rw [hemits]
  rw [hpersist] at hflight
  have hmem : ∀ p, BookEvent.accepted p ∈ es ++ [.accepted o] ↔ .accepted p ∈ es ∨ p = o := by
    simp
  have hleft : ∀ p how, BookEvent.left p how ∈ es ++ [.accepted o] ↔ .left p how ∈ es := by
    simp
  refine ⟨?_, ?_, ?_, ?_, ?_, ?_, ?_, ?_, ?_, ?_, ?_⟩
  · intro coid p hp
    rw [hnext] at hp
    rw [hmem]
    split at hp
    · exact Or.inr (Option.some.inj hp).symm
    · exact Or.inl (h.resting coid p hp)
  · intro p q hp hq heq
    rw [hmem] at hp hq
    rcases hp with hp | rfl
    · rcases hq with hq | rfl
      · exact h.unique p q hp hq heq
      · exact absurd heq (hother p hp)
    · rcases hq with hq | rfl
      · exact absurd heq.symm (hother q hq)
      · rfl
  · intro p how hp
    rw [hleft] at hp
    obtain ⟨hpacc, hgone⟩ := h.left_gone p how hp
    rw [hmem, hnext, if_neg (hother p hpacc)]
    exact ⟨Or.inl hpacc, hgone⟩
  · intro p how how' hp hp'
    rw [hleft] at hp hp'
    exact h.left_once p how how' hp hp'
  · intro p hp
    rw [hmem] at hp
    simp only [hnext, hleft]
    rcases hp with hp | rfl
    · rw [if_neg (hother p hp)]
      exact h.rests_or_left p hp
    · exact Or.inl (if_pos rfl)
  · intro p hp
    rw [hmem] at hp
    rcases hp with hp | rfl
    · exact hknown _ (h.known p hp)
    · rw [Known, hflight, List.map_append]
      exact Or.inl (List.mem_append_right _ (List.mem_singleton_self _))
  · intro row hrow
    rw [hflight, List.mem_append, List.mem_singleton] at hrow
    rcases hrow with hrow | hrow
    · obtain ⟨⟨p, hp, rfl⟩, hfresh⟩ := h.inserts row hrow
      exact ⟨⟨p, (hmem p).mpr (Or.inl hp), rfl⟩, hfresh⟩
    · obtain rfl := Statement.insertOrder.inj hrow
      exact ⟨⟨o, (hmem o).mpr (Or.inr rfl), rfl⟩, fun hin => hnew (Or.inr hin)⟩
  · rw [hflight, List.filterMap_append]
    refine h.inserts_once.append (List.nodup_singleton o.coid) ?_
    intro coid hin hsing
    obtain rfl := List.mem_singleton.mp hsing
    obtain ⟨st, hst, hid⟩ := List.mem_filterMap.mp hin
    exact hnew (Or.inl (List.mem_map.mpr ⟨st, hst, hid⟩))
  · intro st hst hupd
    rw [hflight, List.mem_append, List.mem_singleton] at hst
    rcases hst with hst | rfl
    · obtain ⟨p, how, hp, rfl⟩ := h.updates st hst hupd
      exact ⟨p, how, (hleft p how).mpr hp, rfl⟩
    · cases hupd
  · intro p hp row hrow hid
    rw [hmem] at hp
    rcases hp with hp | rfl
    · obtain ⟨hts, hst⟩ := h.rows p hp row hrow hid
      refine ⟨hts, hst.imp_right ?_⟩
      rintro ⟨how, hhow, heq⟩
      exact ⟨how, (hleft p how).mpr hhow, heq⟩
    · exact absurd (Or.inr (List.mem_map.mpr ⟨row, hrow, hid⟩)) hnew
  · intro p how hp
    rw [hleft] at hp
    rw [hflight, List.mem_append]
    exact (h.owed p how hp).imp_left Or.inl

/-- A call that accepts nothing keeps the invariant: orders only leave, and what they owe the
database is put in flight with it. -/
theorem persisted_leave (makerFeeBps : K) (es : List (BookEvent K)) (s : BookStore K)
    (call : BookCall K) (h : Persisted es s)
    (hacc : ∀ o, .accepted o ∉ (bookMachine makerFeeBps).emits s.book call) :
    Persisted (es ++ (bookMachine makerFeeBps).emits s.book call)
      ((storeMachine makerFeeBps).next s (.call call)) := by
  have hflight := inFlight_call makerFeeBps s call
  have hknown := known_call makerFeeBps s call
  have hbook : ((storeMachine makerFeeBps).next s (.call call)).book =
      (bookMachine makerFeeBps).next s.book call := rfl
  obtain ⟨hkeep, hgone, hstay, honce⟩ := call_of_not_accepted makerFeeBps s.book call hacc
  have hmem : ∀ p, BookEvent.accepted p ∈ es ++ (bookMachine makerFeeBps).emits s.book call ↔
      .accepted p ∈ es := by
    intro p
    rw [List.mem_append]
    exact or_iff_left (hacc p)
  have hinsert : ∀ st ∈ persist makerFeeBps s.book call, insertedId st = none := by
    intro st hst
    cases st with
    | insertOrder row =>
      obtain ⟨p, hp, -⟩ := (inserted_mem_persist_iff makerFeeBps s.book call row).mp hst
      exact absurd hp (hacc p)
    | cancelOrder orderId tsSubmit ttl => rfl
    | insertFills fills => rfl
    | fillOrder orderId ts => rfl
  refine ⟨?_, ?_, ?_, ?_, ?_, ?_, ?_, ?_, ?_, ?_, ?_⟩
  · intro coid p hp
    exact (hmem p).mpr (h.resting coid p (hkeep coid p hp))
  · intro p q hp hq
    exact h.unique p q ((hmem p).mp hp) ((hmem q).mp hq)
  · intro p how hp
    rw [hmem, hbook]
    rcases List.mem_append.mp hp with hp | hp
    · obtain ⟨hpacc, hpgone⟩ := h.left_gone p how hp
      refine ⟨hpacc, ?_⟩
      cases hnext : ((bookMachine makerFeeBps).next s.book call).get? p.coid with
      | none => rfl
      | some q =>
        rw [hkeep p.coid q hnext] at hpgone
        cases hpgone
    · obtain ⟨hget, hnone⟩ := hgone p how hp
      exact ⟨h.resting p.coid p hget, hnone⟩
  · intro p how how' hp hp'
    rcases List.mem_append.mp hp with hp | hp
    · rcases List.mem_append.mp hp' with hp' | hp'
      · exact h.left_once p how how' hp hp'
      · have hrest := (hgone p how' hp').1
        rw [(h.left_gone p how hp).2] at hrest
        cases hrest
    · rcases List.mem_append.mp hp' with hp' | hp'
      · have hrest := (hgone p how hp).1
        rw [(h.left_gone p how' hp').2] at hrest
        cases hrest
      · exact honce p how how' hp hp'
  · intro p hp
    rw [hbook]
    rcases h.rests_or_left p ((hmem p).mp hp) with hrest | ⟨how, hhow⟩
    · rcases hstay p.coid p hrest with hstays | ⟨how, hhow⟩
      · exact Or.inl hstays
      · exact Or.inr ⟨how, List.mem_append_right _ hhow⟩
    · exact Or.inr ⟨how, List.mem_append_left _ hhow⟩
  · intro p hp
    exact hknown _ (h.known p ((hmem p).mp hp))
  · intro row hrow
    rw [hflight, List.mem_append] at hrow
    rcases hrow with hrow | hrow
    · obtain ⟨⟨p, hp, rfl⟩, hfresh⟩ := h.inserts row hrow
      exact ⟨⟨p, (hmem p).mpr hp, rfl⟩, hfresh⟩
    · exact absurd (hinsert _ hrow) (Option.some_ne_none row.orderId)
  · rw [hflight, List.filterMap_append, List.filterMap_eq_nil_iff.mpr hinsert,
      List.append_nil]
    exact h.inserts_once
  · intro st hst hupd
    rw [hflight, List.mem_append] at hst
    rcases hst with hst | hst
    · obtain ⟨p, how, hp, rfl⟩ := h.updates st hst hupd
      exact ⟨p, how, List.mem_append_left _ hp, rfl⟩
    · obtain ⟨p, how, hp, rfl⟩ :=
        (update_mem_persist_iff makerFeeBps s.book call st hupd).mp hst
      exact ⟨p, how, List.mem_append_right _ hp, rfl⟩
  · intro p hp row hrow hid
    obtain ⟨hts, hst⟩ := h.rows p ((hmem p).mp hp) row hrow hid
    refine ⟨hts, hst.imp_right ?_⟩
    rintro ⟨how, hhow, heq⟩
    exact ⟨how, List.mem_append_left _ hhow, heq⟩
  · intro p how hp
    rw [hflight, List.mem_append]
    rcases List.mem_append.mp hp with hp | hp
    · exact (h.owed p how hp).imp_left Or.inl
    · have hupd : (updatedId (updateOf p how)).isSome = true := by
        rw [updatedId_updateOf]
        rfl
      exact Or.inl (Or.inr
        ((update_mem_persist_iff makerFeeBps s.book call _ hupd).mpr ⟨p, how, hp, rfl⟩))

/-- **A call keeps the invariant** if it does not place a known id anew. -/
theorem persisted_call (makerFeeBps : K) (es : List (BookEvent K)) (s : BookStore K)
    (call : BookCall K) (h : Persisted es s) (horder : InOrder s (.call call)) :
    Persisted (es ++ (bookMachine makerFeeBps).emits s.book call)
      ((storeMachine makerFeeBps).next s (.call call)) := by
  by_cases hacc : ∃ o, .accepted o ∈ (bookMachine makerFeeBps).emits s.book call
  · obtain ⟨o, ho⟩ := hacc
    exact persisted_accept makerFeeBps es s call o h horder ho
  · exact persisted_leave makerFeeBps es s call h (not_exists.mp hacc)

omit [Field K] [LinearOrder K] in
/-- Taking the first statement of one operation takes it out of what is in flight. -/
theorem flatten_perm_of_getElem? {α : Type} (qs : List (List α)) (i : ℕ) (a : α) (rest : List α)
    (h : qs[i]? = some (a :: rest)) : qs.flatten.Perm (a :: (qs.set i rest).flatten) := by
  induction qs generalizing i with
  | nil => simp at h
  | cons q qs ih =>
    cases i with
    | zero =>
      obtain rfl : q = a :: rest := by simpa using h
      simp
    | succ i =>
      rw [List.getElem?_cons_succ] at h
      rw [List.set_cons_succ, List.flatten_cons, List.flatten_cons]
      exact ((ih i h).append_left q).trans List.perm_middle

omit [Field K] in
/-- A row after a statement that inserts none is a row before it; its status is the old one or
that of the departure the statement stores. -/
theorem mem_rows_runOrders (st : Statement K) (clock : K)
    (orders : Table (StoredOrder.key (K := K))) (row : StoredOrder K)
    (hinsert : insertedId st = none) (h : row ∈ (st.runOrders clock orders).rows) :
    ∃ r ∈ orders.rows, r.orderId = row.orderId ∧ r.tsSubmit = row.tsSubmit ∧
      (row.status = r.status ∨ updatedId st = some row.orderId ∧
        ∀ o how, st = updateOf o how → row.status = status how) := by
  cases st with
  | insertOrder new => cases hinsert
  | insertFills fills => exact ⟨row, h, rfl, rfl, Or.inl rfl⟩
  | cancelOrder orderId tsSubmit ttl =>
    obtain ⟨r, hr, rfl⟩ := List.mem_map.mp h
    refine ⟨r, hr, ?_⟩
    split
    · rename_i hmatch
      have hid : r.orderId = orderId := (of_decide_eq_true hmatch).1
      refine ⟨rfl, rfl, Or.inr ⟨by rw [updatedId, hid], ?_⟩⟩
      intro o how heq
      cases how with
      | fill f => cases heq
      | cancel => rfl
      | ttl => rfl
    · exact ⟨rfl, rfl, Or.inl rfl⟩
  | fillOrder orderId ts =>
    obtain ⟨r, hr, rfl⟩ := List.mem_map.mp h
    refine ⟨r, hr, ?_⟩
    split
    · rename_i hmatch
      have hid : r.orderId = orderId := of_decide_eq_true hmatch
      refine ⟨rfl, rfl, Or.inr ⟨by rw [updatedId, hid], ?_⟩⟩
      intro o how heq
      cases how with
      | fill f => rfl
      | cancel => cases heq
      | ttl => cases heq
    · exact ⟨rfl, rfl, Or.inl rfl⟩

omit [Field K] in
/-- An update keeps every row, and gives its order's row the status of the departure. -/
theorem mem_runOrders_of_mem (o : LimitOrder K) (how : Departure K) (clock : K)
    (orders : Table (StoredOrder.key (K := K))) (r : StoredOrder K) (hr : r ∈ orders.rows) :
    ∃ row ∈ ((updateOf o how).runOrders clock orders).rows, row.orderId = r.orderId ∧
      (r.orderId = o.coid → r.tsSubmit = o.tsPlaced → row.status = status how) ∧
      (r.orderId ≠ o.coid → row.status = r.status) := by
  have hupdate : ∀ (p : StoredOrder K → Bool) (f : StoredOrder K → StoredOrder K)
      (hf : ∀ r, StoredOrder.key (f r) = StoredOrder.key r)
      (_ : ∀ r, (f r).orderId = r.orderId ∧ (f r).status = status how)
      (_ : r.orderId = o.coid → r.tsSubmit = o.tsPlaced → p r = true)
      (_ : r.orderId ≠ o.coid → p r = false),
      ∃ row ∈ (orders.updateWhere p f hf).rows, row.orderId = r.orderId ∧
        (r.orderId = o.coid → r.tsSubmit = o.tsPlaced → row.status = status how) ∧
        (r.orderId ≠ o.coid → row.status = r.status) := by
    intro p f hf hfields hyes hno
    refine ⟨if p r then f r else r, List.mem_map_of_mem hr, ?_, ?_, ?_⟩
    · split
      · exact (hfields r).1
      · rfl
    · intro hid hts
      rw [if_pos (hyes hid hts)]
      exact (hfields r).2
    · intro hid
      rw [hno hid]
      rfl
  cases how with
  | fill f =>
    apply hupdate
    · intro r
      rfl
    · intro r
      exact ⟨rfl, rfl⟩
    · intro hid _
      exact decide_eq_true hid
    · intro hid
      exact decide_eq_false hid
  | cancel =>
    apply hupdate
    · intro r
      rfl
    · intro r
      exact ⟨rfl, rfl⟩
    · intro hid hts
      exact decide_eq_true ⟨hid, hts⟩
    · intro hid
      exact decide_eq_false fun hc => hid hc.1
  | ttl =>
    apply hupdate
    · intro r
      rfl
    · intro r
      exact ⟨rfl, rfl⟩
    · intro hid hts
      exact decide_eq_true ⟨hid, hts⟩
    · intro hid
      exact decide_eq_false fun hc => hid hc.1

omit [Field K] in
/-- The row of an insert whose order the table does not know is appended. -/
theorem rows_insertOrder (new : StoredOrder K) (clock : K)
    (orders : Table (StoredOrder.key (K := K)))
    (hnew : new.orderId ∉ orders.rows.map (·.orderId)) :
    ((Statement.insertOrder new).runOrders clock orders).rows = orders.rows ++ [new] := by
  have hkey : new.key ∉ orders.rows.map StoredOrder.key := by
    intro hin
    obtain ⟨r, hr, heq⟩ := List.mem_map.mp hin
    exact hnew (List.mem_map.mpr ⟨r, hr, (Prod.mk.inj heq).1⟩)
  rw [Statement.runOrders, Table.rows_insertNew, if_neg hkey]

omit [Field K] in
/-- The insert of an accepted order keeps the invariant. -/
theorem persisted_insert (es : List (BookEvent K)) (s s' : BookStore K) (new : StoredOrder K)
    (clock : K) (h : Persisted es s)
    (hflight : (inFlight s).Perm (.insertOrder new :: inFlight s')) (hbook : s'.book = s.book)
    (horders : s'.orders = (Statement.insertOrder new).runOrders clock s.orders) :
    Persisted es s' := by
  have hmem : ∀ x, x ∈ inFlight s ↔ x = .insertOrder new ∨ x ∈ inFlight s' := by
    intro x
    rw [hflight.mem_iff, List.mem_cons]
  have hinserts := h.inserts_once
  rw [(hflight.filterMap insertedId).nodup_iff] at hinserts
  obtain ⟨⟨o, ho, rfl⟩, hfresh⟩ := h.inserts new ((hmem _).mpr (Or.inl rfl))
  have hrows : s'.orders.rows = s.orders.rows ++ [o.newRow] := by
    rw [horders]
    exact rows_insertOrder o.newRow clock s.orders hfresh
  simp only [List.filterMap_cons, insertedId, List.nodup_cons] at hinserts
  refine ⟨hbook ▸ h.resting, h.unique, hbook ▸ h.left_gone, h.left_once,
    hbook ▸ h.rests_or_left, ?_, ?_, hinserts.2, ?_, ?_, ?_⟩
  · intro p hp
    rcases h.known p hp with hin | hrow
    · obtain ⟨x, hx, hid⟩ := List.mem_map.mp hin
      rcases (hmem x).mp hx with rfl | hx
      · refine Or.inr ?_
        rw [hrows, List.map_append]
        exact List.mem_append_right _ (List.mem_singleton.mpr (Option.some.inj hid).symm)
      · exact Or.inl (List.mem_map.mpr ⟨x, hx, hid⟩)
    · refine Or.inr ?_
      rw [hrows, List.map_append]
      exact List.mem_append_left _ hrow
  · intro row hrow
    obtain ⟨hacc, hold⟩ := h.inserts row ((hmem _).mpr (Or.inr hrow))
    refine ⟨hacc, ?_⟩
    rw [hrows, List.map_append, List.mem_append, List.map_singleton, List.mem_singleton]
    rintro (hin | heq)
    · exact hold hin
    · exact hinserts.1 (List.mem_filterMap.mpr ⟨_, hrow, congrArg some heq⟩)
  · intro x hx hupd
    exact h.updates x ((hmem x).mpr (Or.inr hx)) hupd
  · intro p hp row hrow hid
    rw [hrows, List.mem_append, List.mem_singleton] at hrow
    rcases hrow with hrow | rfl
    · exact h.rows p hp row hrow hid
    · obtain rfl := h.unique o p ho hp hid
      exact ⟨rfl, Or.inl rfl⟩
  · intro p how hp
    rcases h.owed p how hp with hin | ⟨row, hrow, hid, hst⟩
    · rcases (hmem _).mp hin with heq | hin
      · cases how <;> cases heq
      · exact Or.inl hin
    · refine Or.inr ⟨row, ?_, hid, hst⟩
      rw [hrows]
      exact List.mem_append_left _ hrow

omit [Field K] in
/-- An update keeps the invariant if it does not overtake the insert of its order. -/
theorem persisted_update (es : List (BookEvent K)) (s s' : BookStore K) (st : Statement K)
    (clock : K) (h : Persisted es s) (hflight : (inFlight s).Perm (st :: inFlight s'))
    (hbook : s'.book = s.book) (horders : s'.orders = st.runOrders clock s.orders)
    (hins : insertedId st = none)
    (horder : ∀ coid, updatedId st = some coid → some coid ∉ (inFlight s).map insertedId) :
    Persisted es s' := by
  have hmem : ∀ x, x ∈ inFlight s ↔ x = st ∨ x ∈ inFlight s' := by
    intro x
    rw [hflight.mem_iff, List.mem_cons]
  have hinserts := h.inserts_once
  rw [(hflight.filterMap insertedId).nodup_iff] at hinserts
  have hids : ∀ o, .accepted o ∈ es → ∀ how, st = updateOf o how →
      ∃ r ∈ s.orders.rows, r.orderId = o.coid ∧ r.tsSubmit = o.tsPlaced := by
    intro o ho how hst
    rcases h.known o ho with hin | hrow
    · exact absurd hin (horder o.coid (by rw [hst, updatedId_updateOf]))
    · obtain ⟨r, hr, hid⟩ := List.mem_map.mp hrow
      exact ⟨r, hr, hid, (h.rows o ho r hr hid).1⟩
  have hback : ∀ row ∈ s'.orders.rows, ∃ r ∈ s.orders.rows, r.orderId = row.orderId ∧
      r.tsSubmit = row.tsSubmit ∧ (row.status = r.status ∨ updatedId st = some row.orderId ∧
        ∀ o how, st = updateOf o how → row.status = status how) := by
    intro row hrow
    rw [horders] at hrow
    exact mem_rows_runOrders st clock s.orders row hins hrow
  have hforth : ∀ r ∈ s.orders.rows, ∃ row ∈ s'.orders.rows, row.orderId = r.orderId ∧
      ∀ o how, .left o how ∈ es → r.orderId = o.coid → r.tsSubmit = o.tsPlaced →
        (st = updateOf o how ∨ r.status = status how) → row.status = status how := by
    intro r hr
    rw [horders]
    by_cases hupd : (updatedId st).isSome = true
    · obtain ⟨p, how', hp, rfl⟩ := h.updates st ((hmem st).mpr (Or.inl rfl)) hupd
      obtain ⟨row, hrow, hid, hown, hothers⟩ := mem_runOrders_of_mem p how' clock s.orders r hr
      refine ⟨row, hrow, hid, ?_⟩
      intro o how ho hro hts hst
      by_cases hrp : r.orderId = p.coid
      · obtain rfl := h.unique o p (h.left_gone o how ho).1 (h.left_gone p how' hp).1
          (hro.symm.trans hrp)
        rw [hown hro hts, h.left_once o how how' ho hp]
      · rw [hothers hrp]
        rcases hst with heq | hst
        · have hcoid := congrArg updatedId heq
          rw [updatedId_updateOf, updatedId_updateOf] at hcoid
          exact absurd (hro.trans (Option.some.inj hcoid).symm) hrp
        · exact hst
    · refine ⟨r, ?_, rfl, ?_⟩
      · cases st with
        | insertOrder new => cases hins
        | insertFills fills => exact hr
        | cancelOrder orderId tsSubmit ttl => exact absurd rfl hupd
        | fillOrder orderId ts => exact absurd rfl hupd
      · rintro o how - - - (rfl | hst)
        · rw [updatedId_updateOf] at hupd
          exact absurd rfl hupd
        · exact hst
  simp only [List.filterMap_cons, hins] at hinserts
  refine ⟨hbook ▸ h.resting, h.unique, hbook ▸ h.left_gone, h.left_once,
    hbook ▸ h.rests_or_left, ?_, ?_, hinserts, ?_, ?_, ?_⟩
  · intro p hp
    rcases h.known p hp with hin | hrow
    · obtain ⟨x, hx, hid⟩ := List.mem_map.mp hin
      rcases (hmem x).mp hx with rfl | hx
      · rw [hins] at hid
        cases hid
      · exact Or.inl (List.mem_map.mpr ⟨x, hx, hid⟩)
    · obtain ⟨r, hr, hid⟩ := List.mem_map.mp hrow
      obtain ⟨row, hrow, hid', -⟩ := hforth r hr
      exact Or.inr (List.mem_map.mpr ⟨row, hrow, hid'.trans hid⟩)
  · intro row hrow
    obtain ⟨hacc, hold⟩ := h.inserts row ((hmem _).mpr (Or.inr hrow))
    refine ⟨hacc, ?_⟩
    intro hin
    obtain ⟨row', hrow', hid⟩ := List.mem_map.mp hin
    obtain ⟨r, hr, hid', -⟩ := hback row' hrow'
    exact hold (List.mem_map.mpr ⟨r, hr, hid'.trans hid⟩)
  · intro x hx hupd
    exact h.updates x ((hmem x).mpr (Or.inr hx)) hupd
  · intro p hp row hrow hid
    obtain ⟨r, hr, hid', hts, hst⟩ := hback row hrow
    obtain ⟨hrts, hrst⟩ := h.rows p hp r hr (hid'.trans hid)
    refine ⟨hts ▸ hrts, ?_⟩
    rcases hst with hst | ⟨hupd, hst⟩
    · rw [hst]
      exact hrst
    · obtain ⟨q, how, hq, hqst⟩ := h.updates st ((hmem st).mpr (Or.inl rfl)) (by rw [hupd]; rfl)
      have hcoid : q.coid = p.coid := by
        rw [hqst, updatedId_updateOf] at hupd
        exact (Option.some.inj hupd).trans hid
      obtain rfl := h.unique q p (h.left_gone q how hq).1 hp hcoid
      exact Or.inr ⟨how, hq, (hst q how hqst).symm⟩
  · intro p how hp
    have hpacc := (h.left_gone p how hp).1
    rcases h.owed p how hp with hin | ⟨r, hr, hid, hst⟩
    · rcases (hmem _).mp hin with heq | hin
      · obtain ⟨r, hr, hid, hts⟩ := hids p hpacc how heq.symm
        obtain ⟨row, hrow, hid', hrowst⟩ := hforth r hr
        exact Or.inr ⟨row, hrow, hid'.trans hid, hrowst p how hp hid hts (Or.inl heq.symm)⟩
      · exact Or.inl hin
    · obtain ⟨row, hrow, hid', hrowst⟩ := hforth r hr
      exact Or.inr ⟨row, hrow, hid'.trans hid,
        hrowst p how hp hid (h.rows p hpacc r hr hid).1 (Or.inr hst)⟩

/-- **A statement keeps the invariant** if it does not overtake the insert of its order. -/
theorem persisted_execute (makerFeeBps : K) (es : List (BookEvent K)) (s : BookStore K)
    (i : ℕ) (clock : K) (h : Persisted es s) (horder : InOrder s (.execute i clock)) :
    Persisted es ((storeMachine makerFeeBps).next s (.execute i clock)) := by
  change Persisted es (storeStep makerFeeBps s (.execute i clock)).1
  rcases hq : s.pending[i]? with - | q
  · simp only [storeStep, hq]
    exact h
  · cases q with
    | nil =>
      simp only [storeStep, hq]
      exact h
    | cons st rest =>
      simp only [storeStep, hq]
      have hflight := flatten_perm_of_getElem? s.pending i st rest hq
      cases hins : insertedId st with
      | none =>
        exact persisted_update es s _ st clock h hflight rfl rfl hins
          (fun coid hupd => horder st (by rw [hq]; rfl) coid hupd)
      | some coid =>
        cases st with
        | insertOrder new => exact persisted_insert es s _ new clock h hflight rfl rfl
        | cancelOrder orderId tsSubmit ttl => cases hins
        | insertFills fills => cases hins
        | fillOrder orderId ts => cases hins

/-- **The stored status follows the memory.** In every run of operations and statements in any
order, over any tables, that places no id the database knows anew and in which no update
overtakes the insert of its order: whenever nothing is in flight, every order that was accepted
has its row, with the status of what happened to it in memory.
SOURCE: paper/limit_book_sim.py:129-363 -/
theorem status_follows (makerFeeBps : K) (orders : Table (StoredOrder.key (K := K)))
    (fills : Table (StoredFill.key (K := K))) (ls : List (StoreLabel K))
    (horder : (storeMachine makerFeeBps).Along InOrder (BookStore.init orders fills) ls)
    (hquiet : inFlight ((storeMachine makerFeeBps).final (BookStore.init orders fills) ls) = []) :
    StatusFollows ((storeMachine makerFeeBps).trace (BookStore.init orders fills) ls)
      ((storeMachine makerFeeBps).final (BookStore.init orders fills) ls).book
      ((storeMachine makerFeeBps).final (BookStore.init orders fills) ls).orders := by
  have hrun := (storeMachine makerFeeBps).invariant
    (fun pre l => InOrder ((storeMachine makerFeeBps).final (BookStore.init orders fills) pre) l)
    (fun _ s es => Persisted es s) (BookStore.init orders fills) (persisted_init orders fills)
    (fun pre l hl ih => ?_) ls horder
  · exact hrun.statusFollows hquiet
  · cases l with
    | call call => exact persisted_call makerFeeBps _ _ call ih hl
    | execute i clock =>
      have hnone : (storeMachine makerFeeBps).emits
          ((storeMachine makerFeeBps).final (BookStore.init orders fills) pre)
          (.execute i clock) = [] := by
        change (storeStep makerFeeBps _ (.execute i clock)).2 = []
        simp only [storeStep]
        split <;> rfl
      rw [hnone, List.append_nil]
      exact persisted_execute makerFeeBps _ _ i clock ih hl

end Calls

section Instance

/-- An order to buy at 0.3. -/
def restingBuy (coid : String) (ts : ℚ) : LimitOrder ℚ where
  coid := coid
  strategyId := "mm_rebate_v1"
  instrumentId := "btc-updown-15m-900-YES.POLYMARKET"
  side := "BUY"
  price := 3 / 10
  qty := 100
  tsPlaced := ts
  ttlS := none

/-- A placement and a tick that fills it, both with their statements still to run. -/
def filledInMemory : List (StoreLabel ℚ) :=
  [.call (.place (restingBuy "a" 1000)),
    .call (.onTick "btc-updown-15m-900-YES.POLYMARKET" (1 / 4) 1001)]

/-- With every statement after the insert, the row of the filled order says so. -/
theorem status_follows_insertFirst :
    StatusFollows
      ((storeMachine (10 : ℚ)).trace (BookStore.init Table.empty Table.empty)
        (filledInMemory ++ [.execute 0 1002, .execute 1 1002, .execute 1 1002]))
      ((storeMachine (10 : ℚ)).final (BookStore.init Table.empty Table.empty)
        (filledInMemory ++ [.execute 0 1002, .execute 1 1002, .execute 1 1002])).book
      ((storeMachine (10 : ℚ)).final (BookStore.init Table.empty Table.empty)
        (filledInMemory ++ [.execute 0 1002, .execute 1 1002, .execute 1 1002])).orders := by
  refine status_follows 10 Table.empty Table.empty _ ?_ (by decide +kernel)
  simp only [Machine.Along, filledInMemory, List.cons_append, List.nil_append, Obeys.cons_iff]
  refine ⟨?_, ?_, ?_, ?_, ?_, Obeys.nil⟩ <;> decide +kernel

/-- The tick's update runs before the insert of the order it filled: the row says `NEW`, and
the order does not rest.
SOURCE: paper/limit_book_sim.py:129-154, 202-259, 261-299, 356-363 -/
theorem status_lost_update :
    ¬StatusFollows
      ((storeMachine (10 : ℚ)).trace (BookStore.init Table.empty Table.empty)
        (filledInMemory ++ [.execute 1 1002, .execute 1 1002, .execute 0 1002]))
      ((storeMachine (10 : ℚ)).final (BookStore.init Table.empty Table.empty)
        (filledInMemory ++ [.execute 1 1002, .execute 1 1002, .execute 0 1002])).book
      ((storeMachine (10 : ℚ)).final (BookStore.init Table.empty Table.empty)
        (filledInMemory ++ [.execute 1 1002, .execute 1 1002, .execute 0 1002])).orders := by
  intro h
  obtain ⟨row, hrow, -, hfilled, -⟩ := h (restingBuy "a" 1000) (by decide +kernel)
  have hnew : ∀ row ∈ ((storeMachine (10 : ℚ)).final (BookStore.init Table.empty Table.empty)
      (filledInMemory ++ [.execute 1 1002, .execute 1 1002, .execute 0 1002])).orders.rows,
      row.status = .new := by
    decide +kernel
  have hstatus := hfilled ⟨(restingBuy "a" 1000).fill 10 1001, by decide +kernel⟩
  rw [hnew row hrow] at hstatus
  cases hstatus

end Instance

end TradingEdge.Analysis
