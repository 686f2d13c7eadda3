import Mathlib.Algebra.BigOperators.Group.List.Basic
import TradingEdge.Analysis.InventoryCap
import TradingEdge.Analysis.MakerFleet

/-!
# The shared caps of the market makers

`GlobalMMState` is meant to bound two totals over all drivers: the notional of what rests and
of what has been filled, and the inventories at their market prices.  Its tables of the two
are written by `update_strategy`, which nothing calls, so the guard of a fresh quote compares
the notional of that quote alone with the caps; a replacement it does not see at all.

A fill moves its notional from the book to the log, so the first total grows only where an
order is placed, and there by its notional (`places_step`); the second moves where an instance
takes a new mid and where it is credited a fill (`Marks`).  `Fits` says of these steps that the
totals have room, and a run keeps within the caps exactly when all its steps do
(`within_caps_iff`), however the drivers interleave.
-/

set_option autoImplicit false

namespace TradingEdge.Analysis

open TradingEdge.Library TradingEdge.Model TradingEdge.Program

variable {K : Type} [Field K] [LinearOrder K]

/-- What an order puts at risk. -/
def notional (o : LimitOrder K) : K := o.price * o.qty

/-- What the resting orders of a book put at risk. -/
def restingNotional (b : LimitBook K) : K := (b.snapshot.map notional).sum

/-- The open quotes' notional and the filled notional of an instance.
SOURCE: paper/global_mm_state.py:10-13 -/
def capitalAtRisk (inst : MMInstance K) : K :=
  restingNotional inst.driver.limitBook + (inst.fills.map fun f => f.price * f.qty).sum

/-- Inventories at the last mids of their markets. -/
def markedInventory (inventory : String → K) (mids : Dict String K) : K :=
  (mids.entries.map fun e => |inventory e.1 * e.2|).sum

/-- The inventories of an instance at the mids it has seen.
SOURCE: paper/global_mm_state.py:14-15 -/
def inventoryUsdc (inst : MMInstance K) : K :=
  markedInventory inst.driver.strategy.safety.inventory inst.mids

section Notional

variable (b : LimitBook K)

omit [LinearOrder K] in
/-- An order that is put adds its notional. -/
theorem restingNotional_put {b' : LimitBook K} {o : LimitOrder K} (hfree : b.get? o.coid = none)
    (hput : ∀ k, b'.get? k = if k = o.coid then some o else b.get? k) :
    restingNotional b' = restingNotional b + notional o := by
  have hfresh : o ∉ b.snapshot := by
    intro hmem
    rw [b.mem_snapshot_iff, hfree] at hmem
    cases hmem
  have hperm : b'.snapshot.Perm (o :: b.snapshot) := by
    rw [List.perm_ext_iff_of_nodup b'.nodup_coids.of_map
      (List.nodup_cons.mpr ⟨hfresh, b.nodup_coids.of_map⟩)]
    intro p
    rw [b'.mem_snapshot_iff, List.mem_cons, b.mem_snapshot_iff, hput]
    by_cases hcoid : p.coid = o.coid
    · rw [if_pos hcoid, hcoid, hfree]
      simp [eq_comm]
    · have hne : p ≠ o := fun heq => hcoid (heq ▸ rfl)
      rw [if_neg hcoid]
      simp [hne]
  rw [restingNotional, (hperm.map notional).sum_eq, List.map_cons, List.sum_cons, add_comm]
  rfl

omit [LinearOrder K] in
/-- An order that is popped takes its notional with it. -/
theorem restingNotional_pop {coid : String} {o : LimitOrder K} (h : b.get? coid = some o) :
    restingNotional b = notional o + restingNotional (b.pop coid) := by
  have hperm : b.snapshot.Perm (o :: (b.pop coid).snapshot) := b.orders.values_perm_pop coid o h
  rw [restingNotional, (hperm.map notional).sum_eq, List.map_cons, List.sum_cons]
  rfl

/-- The match splits the book into what it fills, what it evicts and what it leaves. -/
theorem restingNotional_onTick (makerFeeBps : K) (instrumentId : String) (px ts : K) :
    restingNotional b = ((b.hit instrumentId px ts).map notional).sum +
      ((b.expired instrumentId ts).map notional).sum +
      restingNotional (b.onTick makerFeeBps instrumentId px ts).1 := by
  set left := (b.onTick makerFeeBps instrumentId px ts).1 with hleft
  have hfifo : (b.fifo instrumentId).Nodup := (b.nodup_fifo instrumentId).of_map
  have hmem : ∀ o, o ∈ left.snapshot ↔ b.get? o.coid = some o ∧
      ¬(o.instrumentId = instrumentId ∧ (o.ExpiredAt ts ∨ o.Crossed px)) := by
    intro o
    rw [left.mem_snapshot_iff, hleft, LimitBook.get?_onTick, Option.filter_eq_some_iff,
      decide_eq_true_eq]
  have hperm : b.snapshot.Perm
      (b.hit instrumentId px ts ++ (b.expired instrumentId ts ++ left.snapshot)) := by
    rw [List.perm_ext_iff_of_nodup b.nodup_coids.of_map]
    · intro o
      rw [List.mem_append, List.mem_append, b.mem_hit_iff, b.mem_expired_iff, hmem,
        b.mem_snapshot_iff]
      tauto
    · refine (hfifo.filter _).append ((hfifo.filter _).append left.nodup_coids.of_map ?_) ?_
      · intro o hexpired hrest
        exact ((hmem o).mp hrest).2 ⟨((b.mem_expired_iff _ _ o).mp hexpired).2.1,
          Or.inl ((b.mem_expired_iff _ _ o).mp hexpired).2.2⟩
      · intro o hhit hmem'
        obtain ⟨-, hinst, hfresh, hcrossed⟩ := (b.mem_hit_iff _ _ _ o).mp hhit
        rcases List.mem_append.mp hmem' with hexpired | hrest
        · exact hfresh ((b.mem_expired_iff _ _ o).mp hexpired).2.2
        · exact ((hmem o).mp hrest).2 ⟨hinst, Or.inr hcrossed⟩
  rw [restingNotional, (hperm.map notional).sum_eq, List.map_append, List.map_append,
    List.sum_append, List.sum_append, ← add_assoc]
  rfl

end Notional

/-- The guard that no total was ever reported to looks at the quote alone.
SOURCE: paper/global_mm_state.py:55-88 -/
theorem blockPostQuote_init_iff (maxCapital maxInventory delta : K) (strategyId : String) :
    (GlobalMMState.init maxCapital maxInventory).blockPostQuote strategyId delta delta = none ↔
      delta ≤ maxInventory ∧ delta ≤ maxCapital := by
  have hothers : totalOfOthers (Dict.empty : Dict String K) strategyId = 0 := rfl
  have hzero : |(0 : K)| = 0 := by simp [abs]
  simp only [GlobalMMState.blockPostQuote, GlobalMMState.init, hothers, Dict.get?_empty,
    Option.getD_none, hzero, zero_add]
  constructor
  · intro h
    split at h
    · cases h
    · rename_i hinv
      split at h
      · cases h
      · rename_i hcap
        exact ⟨not_lt.mp hinv, not_lt.mp hcap⟩
  · rintro ⟨hinv, hcap⟩
    rw [if_neg (not_lt.mpr hinv), if_neg (not_lt.mpr hcap)]

section Step

variable (env : MMDriverEnv K) (maxCapital maxInventory : K) (inst : MMInstance K)

/-- The orders that the next step of an instance places: a fresh quote whose notional is within
both caps, or the second half of a replacement; the book must accept it, and its id be free. -/
inductive Places : InstanceLabel K → LimitOrder K → Prop
  | fresh (clock : K) (ctx : TickContext K) (new : PostQuote K) (actions : List (MMAction K))
    (htask : inst.task = some (.dispatching ctx (.post new :: actions)))
    (hinventory : new.qtyShares * new.price ≤ maxInventory)
    (hcapital : new.qtyShares * new.price ≤ maxCapital)
    (hcheck : (env.toMMEnv.limitOrder ctx new).check = none)
    (hfree : inst.driver.limitBook.get? (env.toMMEnv.limitOrder ctx new).coid = none) :
    Places (.resume clock) (env.toMMEnv.limitOrder ctx new)
  | swapped (clock : K) (ctx : TickContext K) (new : PostQuote K) (actions : List (MMAction K))
    (htask : inst.task = some (.placing ctx new actions))
    (hcheck : (env.toMMEnv.limitOrder ctx new).check = none)
    (hfree : inst.driver.limitBook.get? (env.toMMEnv.limitOrder ctx new).coid = none) :
    Places (.resume clock) (env.toMMEnv.limitOrder ctx new)

/-- The inventories and mids that the next step of an instance leaves, where it changes one: a
tick brings a mid, and a fill is credited. -/
inductive Marks : InstanceLabel K → (String → K) → Dict String K → Prop
  | tick (d : TickDict K) (clock : K) (htask : inst.task = none) :
    Marks (.tick d clock) inst.driver.strategy.safety.inventory
      (inst.mids.set d.marketSlug (tickFromDict d).impliedProbYes)
  | credit (clock : K) (ctx : TickContext K) (f : LimitFill K) (fills : List (LimitFill K))
    (htask : inst.task = some (.crediting ctx (f :: fills))) :
    Marks (.resume clock)
      (Function.update inst.driver.strategy.safety.inventory ctx.marketSlug
        (inst.driver.strategy.safety.inventory ctx.marketSlug + signedFill f)) inst.mids

variable {env maxCapital maxInventory inst} {l : InstanceLabel K} {inst' : MMInstance K}

/-- A step that places an order puts it in the book and changes no other order and no fill. -/
theorem places_step {o : LimitOrder K} (h : Places env maxCapital maxInventory inst l o)
    (hnext : (instanceMachine env (GlobalMMState.init maxCapital maxInventory)).next inst l =
      inst') :
    o.check = none ∧ inst.driver.limitBook.get? o.coid = none ∧
    (∀ k, inst'.driver.limitBook.get? k =
      if k = o.coid then some o else inst.driver.limitBook.get? k) ∧
    inst'.fills = inst.fills := by
  subst hnext
  cases h with
  | fresh clock ctx new actions htask hinventory hcapital hcheck hfree =>
    have hguard := (blockPostQuote_init_iff maxCapital maxInventory
      (new.qtyShares * new.price) env.cfg.name).mpr ⟨hinventory, hcapital⟩
    obtain ⟨-, hget⟩ := placeOrder_of_free hcheck hfree
    refine ⟨hcheck, hfree, ?_, ?_⟩
    · intro k
      rw [← hget k]
      simp [instanceMachine, Machine.next, instanceStep, MMInstance.resume, htask,
        MMInstance.sent, dispatchAction, hguard]
    · simp [instanceMachine, Machine.next, instanceStep, MMInstance.resume, htask,
        MMInstance.sent]
  | swapped clock ctx new actions htask hcheck hfree =>
    obtain ⟨-, hget⟩ := placeOrder_of_free hcheck hfree
    refine ⟨hcheck, hfree, ?_, ?_⟩
    · intro k
      rw [← hget k]
      simp [instanceMachine, Machine.next, instanceStep, MMInstance.resume, htask,
        MMInstance.sent]
    · simp [instanceMachine, Machine.next, instanceStep, MMInstance.resume, htask,
        MMInstance.sent]

/-- What a step can do to the book and the fills: place an order, leave both, take one order
out, or match.
SOURCE: paper/mm_driver.py:67-135, 137-197 -/
theorem instance_cases (hnext : (instanceMachine env (GlobalMMState.init maxCapital
      maxInventory)).next inst l = inst') :
    (∃ o, Places env maxCapital maxInventory inst l o) ∨
    (inst'.driver.limitBook = inst.driver.limitBook ∧ inst'.fills = inst.fills) ∨
    (∃ coid, inst'.driver.limitBook = inst.driver.limitBook.pop coid ∧
      inst'.fills = inst.fills) ∨
    ∃ ctx : TickContext K,
      inst'.driver.limitBook = (inst.driver.limitBook.onTick env.makerFeeBps
          (instrumentIdYes ctx.marketSlug) ctx.impliedProbYes ctx.ts).1 ∧
      inst'.fills = inst.fills ++ (inst.driver.limitBook.onTick env.makerFeeBps
          (instrumentIdYes ctx.marketSlug) ctx.impliedProbYes ctx.ts).2 := by
  subst hnext
  cases l with
  | tick d clock =>
    refine Or.inr (Or.inl ?_)
    simp only [instanceMachine, Machine.next, instanceStep, MMInstance.takeTick]
    split
    · exact ⟨rfl, rfl⟩
    · split
      · exact ⟨rfl, rfl⟩
      · exact ⟨rfl, rfl⟩
  | control msg =>
    refine Or.inr (Or.inl ?_)
    cases msg <;> exact ⟨rfl, rfl⟩
  | resume clock =>
    obtain ⟨driver, mids, log, task⟩ := inst
    -- a placement that is not taken changes nothing
    have hplace : ∀ (o : LimitOrder K), ¬(o.check = none ∧ driver.limitBook.get? o.coid = none) →
        (placeOrder driver.limitBook o).book = driver.limitBook := by
      intro o hno
      rcases placeOrder_cases driver.limitBook o with ⟨e, heq, -⟩ | ⟨b', -, hcheck, hfree, -⟩ |
        ⟨heq, -⟩
      · rw [heq]
      · exact absurd ⟨hcheck, hfree⟩ hno
      · rw [heq]
    cases task with
    | none => exact Or.inr (Or.inl ⟨rfl, rfl⟩)
    | some task =>
      cases task with
      | dispatching ctx actions =>
        cases actions with
        | nil =>
          by_cases hmatched : TickContext.Matched ctx
          · refine Or.inr (Or.inr (Or.inr ⟨ctx, ?_, ?_⟩))
            · simp [instanceMachine, Machine.next, instanceStep, MMInstance.resume, hmatched]
            · simp [instanceMachine, Machine.next, instanceStep, MMInstance.resume, hmatched]
          · refine Or.inr (Or.inl ⟨?_, ?_⟩)
            · simp [instanceMachine, Machine.next, instanceStep, MMInstance.resume, hmatched]
            · simp [instanceMachine, Machine.next, instanceStep, MMInstance.resume, hmatched]
        | cons a actions =>
          cases a with
          | post new =>
            cases hguard : (GlobalMMState.init maxCapital maxInventory).blockPostQuote
              env.cfg.name (new.qtyShares * new.price) (new.qtyShares * new.price) with
            | some reason =>
              refine Or.inr (Or.inl ⟨?_, rfl⟩)
              simp [instanceMachine, Machine.next, instanceStep, MMInstance.resume,
                MMInstance.sent, dispatchAction, hguard]
            | none =>
              obtain ⟨hinventory, hcapital⟩ := (blockPostQuote_init_iff _ _ _ _).mp hguard
              by_cases htaken : (env.toMMEnv.limitOrder ctx new).check = none ∧
                  driver.limitBook.get? (env.toMMEnv.limitOrder ctx new).coid = none
              · exact Or.inl ⟨_, .fresh clock ctx new actions rfl hinventory hcapital htaken.1
                  htaken.2⟩
              · refine Or.inr (Or.inl ⟨?_, rfl⟩)
                rw [← hplace _ htaken]
                simp [instanceMachine, Machine.next, instanceStep, MMInstance.resume,
                  MMInstance.sent, dispatchAction, hguard]
          | cancel coid slug reason => exact Or.inr (Or.inr (Or.inl ⟨coid, rfl, rfl⟩))
          | replace old new => exact Or.inr (Or.inr (Or.inl ⟨old, rfl, rfl⟩))
      | placing ctx new actions =>
        by_cases htaken : (env.toMMEnv.limitOrder ctx new).check = none ∧
            driver.limitBook.get? (env.toMMEnv.limitOrder ctx new).coid = none
        · exact Or.inl ⟨_, .swapped clock ctx new actions rfl htaken.1 htaken.2⟩
        · exact Or.inr (Or.inl ⟨hplace _ htaken, rfl⟩)
      | crediting ctx fills =>
        cases fills with
        | nil => exact Or.inr (Or.inl ⟨rfl, rfl⟩)
        | cons f fills => exact Or.inr (Or.inl ⟨rfl, rfl⟩)

/-- A placement adds its notional to what the instance has at risk. -/
theorem capitalAtRisk_of_places {o : LimitOrder K}
    (h : Places env maxCapital maxInventory inst l o)
    (hnext : (instanceMachine env (GlobalMMState.init maxCapital maxInventory)).next inst l =
      inst') :
    capitalAtRisk inst' = capitalAtRisk inst + notional o := by
  obtain ⟨-, hfree, hput, hfills⟩ := places_step h hnext
  rw [capitalAtRisk, capitalAtRisk, hfills, restingNotional_put _ hfree hput, add_right_comm]

/-- Every order of the instance's book has passed the checks of `place`. -/
def Checked (inst : MMInstance K) : Prop :=
  ∀ coid o, inst.driver.limitBook.get? coid = some o → o.check = none

/-- A step leaves only orders that pass their check. -/
theorem Checked.next (h : Checked inst)
    (hnext : (instanceMachine env (GlobalMMState.init maxCapital maxInventory)).next inst l =
      inst') : Checked inst' := by
  intro coid o ho
  rcases instance_cases hnext with ⟨o', hplaces⟩ | ⟨hbook, -⟩ | ⟨id, hbook, -⟩ | ⟨ctx, hbook, -⟩
  · obtain ⟨hcheck, -, hput, -⟩ := places_step hplaces hnext
    rw [hput] at ho
    split at ho
    · exact Option.some.inj ho ▸ hcheck
    · exact h coid o ho
  · exact h coid o (hbook ▸ ho)
  · rw [hbook, LimitBook.get?_pop] at ho
    split at ho
    · cases ho
    · exact h coid o ho
  · rw [hbook, LimitBook.get?_onTick, Option.filter_eq_some_iff] at ho
    exact h coid o ho.1

/-- A fill moves the inventory of its market and no other. -/
theorem inventory_creditFill_eq (cfg : MMRebateConfig K) (m : MMRebate K) (slug : String)
    (f : LimitFill K) (clock : K) :
    (creditFill cfg m slug f clock).safety.inventory =
      Function.update m.safety.inventory slug (m.safety.inventory slug + signedFill f) := by
  funext slug'
  by_cases hslug : slug' = slug
  · subst hslug
    rw [Function.update_self, inventory_creditFill]
  · rw [Function.update_of_ne hslug]
    exact (m.inventory_onFill cfg slug slug' f.coid _ f.price f.qty clock).trans (if_neg hslug)

/-- A step that marks leaves what it marks. -/
theorem marks_step {inventory : String → K} {mids : Dict String K}
    (h : Marks inst l inventory mids)
    (hnext : (instanceMachine env (GlobalMMState.init maxCapital maxInventory)).next inst l =
      inst') :
    inventoryUsdc inst' = markedInventory inventory mids := by
  subst hnext
  cases h with
  | tick d clock htask =>
    have hstep : ∀ inst : MMInstance K, inst.task = none →
        ((inst.takeTick env d clock).1.driver.strategy.safety.inventory =
          inst.driver.strategy.safety.inventory ∧
        (inst.takeTick env d clock).1.mids =
          inst.mids.set d.marketSlug (tickFromDict d).impliedProbYes) := by
      intro inst htask
      simp only [MMInstance.takeTick, htask]
      cases inst.driver.paused with
      | true => exact ⟨rfl, rfl⟩
      | false =>
        refine ⟨?_, rfl⟩
        funext slug
        exact inventory_quoted (g := GlobalMMState.init maxCapital maxInventory)
          (tickFromDict d) clock slug
    obtain ⟨hinventory, hmids⟩ := hstep inst htask
    unfold inventoryUsdc
    change markedInventory (inst.takeTick env d clock).1.driver.strategy.safety.inventory
      (inst.takeTick env d clock).1.mids = _
    rw [hinventory, hmids]
  | credit clock ctx f fills htask =>
    unfold inventoryUsdc
    simp only [instanceMachine, Machine.next, instanceStep, MMInstance.resume, htask]
    rw [inventory_creditFill_eq]

/-- Every other step leaves the inventories and the mids. -/
theorem inventoryUsdc_eq (hnot : ¬∃ inventory mids, Marks inst l inventory mids)
    (hnext : (instanceMachine env (GlobalMMState.init maxCapital maxInventory)).next inst l =
      inst') :
    inventoryUsdc inst' = inventoryUsdc inst := by
  subst hnext
  cases l with
  | tick d clock =>
    cases htask : inst.task with
    | none => exact absurd ⟨_, _, .tick d clock htask⟩ hnot
    | some task =>
      simp [instanceMachine, Machine.next, instanceStep, MMInstance.takeTick, htask]
  | control msg => cases msg <;> rfl
  | resume clock =>
    obtain ⟨driver, mids, log, task⟩ := inst
    cases task with
    | none => rfl
    | some task =>
      cases task with
      | dispatching ctx actions =>
        cases actions with
        | nil =>
          by_cases hmatched : TickContext.Matched ctx <;>
            simp [instanceMachine, Machine.next, instanceStep, MMInstance.resume, hmatched,
              inventoryUsdc]
        | cons a actions => cases a <;> rfl
      | placing ctx new actions => rfl
      | crediting ctx fills =>
        cases fills with
        | nil => rfl
        | cons f fills => exact absurd ⟨_, _, .credit clock ctx f fills rfl⟩ hnot

variable [IsStrictOrderedRing K]

/-- The notional of an order that passes its check is not negative. -/
theorem notional_nonneg {o : LimitOrder K} (h : o.check = none) : 0 ≤ notional o := by
  obtain ⟨hprice, hqty, -⟩ := pos_of_check h
  exact (mul_pos hprice hqty).le

/-- No other step adds to what the instance has at risk: a fill takes its notional from the
book to the log. -/
theorem capitalAtRisk_le (h : Checked inst)
    (hnot : ¬∃ o, Places env maxCapital maxInventory inst l o)
    (hnext : (instanceMachine env (GlobalMMState.init maxCapital maxInventory)).next inst l =
      inst') :
    capitalAtRisk inst' ≤ capitalAtRisk inst := by
  unfold capitalAtRisk
  rcases instance_cases hnext with hplaces | ⟨hbook, hfills⟩ | ⟨coid, hbook, hfills⟩ |
    ⟨ctx, hbook, hfills⟩
  · exact absurd hplaces hnot
  · rw [hbook, hfills]
  · rw [hbook, hfills]
    apply add_le_add_left
    cases hget : inst.driver.limitBook.get? coid with
    | none =>
      have hsame : (inst.driver.limitBook.pop coid).orders = inst.driver.limitBook.orders :=
        Dict.pop_of_get?_none _ _ hget
      rw [restingNotional, restingNotional, LimitBook.snapshot, LimitBook.snapshot, hsame]
    | some o =>
      rw [restingNotional_pop _ hget]
      exact le_add_of_nonneg_left (notional_nonneg (h coid o hget))
  · set b := inst.driver.limitBook
    set instrumentId := instrumentIdYes ctx.marketSlug
    have hexpired : 0 ≤ ((b.expired instrumentId ctx.ts).map notional).sum := by
      apply List.sum_nonneg
      intro x hx
      obtain ⟨o, ho, rfl⟩ := List.mem_map.mp hx
      exact notional_nonneg (h _ o ((b.mem_expired_iff _ _ o).mp ho).1)
    have hfilled : ((b.onTick env.makerFeeBps instrumentId ctx.impliedProbYes
        ctx.ts).2.map fun f => f.price * f.qty).sum =
        ((b.hit instrumentId ctx.impliedProbYes ctx.ts).map notional).sum := by
      rw [LimitBook.onTick, List.map_map]
      rfl
    rw [hbook, hfills, List.map_append, List.sum_append, hfilled,
      restingNotional_onTick b env.makerFeeBps instrumentId ctx.impliedProbYes ctx.ts]
    linarith

end Step

section Runs

variable {ι : Type} [Fintype ι] [DecidableEq ι]

/-- Open and filled notional, over all instances. -/
def totalCapital (s : ι → MMInstance K) : K := ∑ i, capitalAtRisk (s i)

/-- Marked inventories, over all instances. -/
def totalInventory (s : ι → MMInstance K) : K := ∑ i, inventoryUsdc (s i)

/-- The totals have room for the next step: for the notional of an order that it places, and for
the inventories that it marks.  A condition on the state before the step. -/
def Fits (env : ι → MMDriverEnv K) (maxCapital maxInventory : K) (s : ι → MMInstance K)
    (l : ι × InstanceLabel K) : Prop :=
  (∀ o, Places (env l.1) maxCapital maxInventory (s l.1) l.2 o →
    totalCapital s + o.price * o.qty ≤ maxCapital) ∧
  ∀ inventory mids, Marks (s l.1) l.2 inventory mids →
    totalInventory s + (markedInventory inventory mids - inventoryUsdc (s l.1)) ≤ maxInventory

variable (env : ι → MMDriverEnv K) (maxCapital maxInventory : K)

omit [Fintype ι] in
/-- In a run all resting orders have passed their check. -/
theorem checked_fleet (k : ι → KEstimator K) (paused : ι → Bool)
    (ls : List (ι × InstanceLabel K)) (i : ι) :
    Checked ((fleetMachine env (GlobalMMState.init maxCapital maxInventory)).final
      (fleetInit k paused) ls i) := by
  induction ls using List.reverseRecOn generalizing i with
  | nil =>
    intro coid o ho
    cases ho
  | append_singleton ls l ih =>
    rw [Machine.final_concat]
    have hnext : Checked ((instanceMachine (env l.1) (GlobalMMState.init maxCapital
        maxInventory)).next ((fleetMachine env (GlobalMMState.init maxCapital maxInventory)).final
          (fleetInit k paused) ls l.1) l.2) := (ih l.1).next rfl
    exact Machine.forall_interleave_next _ (P := fun _ => Checked) ih l hnext i

variable [IsStrictOrderedRing K]

/-- A step from within the caps stays within them exactly when it fits. -/
theorem next_within_iff (s : ι → MMInstance K) (hchecked : ∀ i, Checked (s i))
    (hcapital : totalCapital s ≤ maxCapital) (hinventory : totalInventory s ≤ maxInventory)
    (l : ι × InstanceLabel K) :
    (totalCapital ((fleetMachine env (GlobalMMState.init maxCapital maxInventory)).next s l) ≤
        maxCapital ∧
      totalInventory ((fleetMachine env (GlobalMMState.init maxCapital maxInventory)).next s l) ≤
        maxInventory) ↔ Fits env maxCapital maxInventory s l := by
  obtain ⟨i, l⟩ := l
  set inst' := (instanceMachine (env i) (GlobalMMState.init maxCapital maxInventory)).next (s i) l
    with hinst'
  have hcap : totalCapital ((fleetMachine env (GlobalMMState.init maxCapital maxInventory)).next s
      (i, l)) = totalCapital s + (capitalAtRisk inst' - capitalAtRisk (s i)) :=
    Machine.sum_interleave_next _ (fun _ => capitalAtRisk) s i l
  have hinv : totalInventory ((fleetMachine env (GlobalMMState.init maxCapital
      maxInventory)).next s (i, l)) =
      totalInventory s + (inventoryUsdc inst' - inventoryUsdc (s i)) :=
    Machine.sum_interleave_next _ (fun _ => inventoryUsdc) s i l
  rw [hcap, hinv]
  apply and_congr
  · constructor
    · intro hle o ho
      rw [capitalAtRisk_of_places ho hinst'.symm, add_sub_cancel_left] at hle
      exact hle
    · intro hfits
      by_cases hplaces : ∃ o, Places (env i) maxCapital maxInventory (s i) l o
      · obtain ⟨o, ho⟩ := hplaces
        rw [capitalAtRisk_of_places ho hinst'.symm, add_sub_cancel_left]
        exact hfits o ho
      · have hle := capitalAtRisk_le (hchecked i) hplaces hinst'.symm
        linarith
  · constructor
    · intro hle inventory mids hmarks
      rw [marks_step hmarks hinst'.symm] at hle
      exact hle
    · intro hfits
      by_cases hmarks : ∃ inventory mids, Marks (s i) l inventory mids
      · obtain ⟨inventory, mids, hmarks⟩ := hmarks
        rw [marks_step hmarks hinst'.symm]
        exact hfits inventory mids hmarks
      · rw [inventoryUsdc_eq hmarks hinst'.symm, sub_self, add_zero]
        exact hinventory

/-- **The shared caps.** Whatever the number of drivers and however their work interleaves, the
two totals stay within the caps throughout a run exactly when the caps are not negative and
every step of the run fits.
SOURCE: paper/global_mm_state.py:32-88, paper/mm_driver.py:67-197 -/
theorem within_caps_iff (k : ι → KEstimator K) (paused : ι → Bool)
    (ls : List (ι × InstanceLabel K)) :
    (∀ pre, pre <+: ls →
      totalCapital ((fleetMachine env (GlobalMMState.init maxCapital maxInventory)).final
          (fleetInit k paused) pre) ≤ maxCapital ∧
        totalInventory ((fleetMachine env (GlobalMMState.init maxCapital maxInventory)).final
          (fleetInit k paused) pre) ≤ maxInventory) ↔
      (0 ≤ maxCapital ∧ 0 ≤ maxInventory) ∧
        (fleetMachine env (GlobalMMState.init maxCapital maxInventory)).Along
          (Fits env maxCapital maxInventory) (fleetInit k paused) ls := by
  have hcapital : totalCapital (fleetInit k paused) = 0 :=
    Finset.sum_eq_zero fun i _ => by
      simp [fleetInit, MMInstance.init, capitalAtRisk, restingNotional, MMPaperDriver.init,
        LimitBook.empty, LimitBook.snapshot]
  have hinventory : totalInventory (fleetInit k paused) = 0 :=
    Finset.sum_eq_zero fun i _ => rfl
  induction ls using List.reverseRecOn with
  | nil => simp [Machine.Along, Obeys.nil, hcapital, hinventory]
  | append_singleton ls l ih =>
    simp only [List.prefix_concat_iff, forall_eq_or_imp, Machine.final_concat]
    rw [Machine.Along, Obeys.concat_iff, ← and_assoc]
    refine and_comm.trans (Iff.trans (and_congr_right ?_) (and_congr_left fun _ => ih))
    intro hbefore
    obtain ⟨hcap, hinv⟩ := hbefore ls (List.prefix_refl ls)
    exact next_within_iff env maxCapital maxInventory _
      (checked_fleet env maxCapital maxInventory k paused ls) hcap hinv l

end Runs

section Instance

/-- One tick of one driver, which posts a bid and an ask. -/
def twoPosts : List (Fin 1 × InstanceLabel ℚ) :=
  [(0, .tick (btcTick 1575 675 (1 / 5)) 1575), (0, .resume 1575), (0, .resume 1575)]

/-- The second of two posts does not fit a cap of 50 USD. -/
theorem within_caps_iff_twoPosts :
    ¬(fleetMachine (fun _ : Fin 1 => btc15mEnv [1 / 5] 0 75) (GlobalMMState.init 50 50)).Along
      (Fits (fun _ => btc15mEnv [1 / 5] 0 75) 50 50)
      (fleetInit (fun _ => ⟨Dict.empty⟩) fun _ => false) twoPosts := by
  intro hfits
  have hwithin := (within_caps_iff (fun _ : Fin 1 => btc15mEnv [1 / 5] 0 75) 50 50
    (fun _ => ⟨Dict.empty⟩) (fun _ => false) twoPosts).mpr ⟨by decide +kernel, hfits⟩
  exact absurd (hwithin twoPosts (List.prefix_refl _)).1 (by decide +kernel)

/-- With caps of 50 either quote passes the guard, and the two together are worth more. -/
theorem posts_past_cap :
    ¬∀ (n : ℕ) (env : Fin n → MMDriverEnv ℚ) (maxCapital maxInventory : ℚ)
      (k : Fin n → KEstimator ℚ) (paused : Fin n → Bool) (ls : List (Fin n × InstanceLabel ℚ)),
      0 ≤ maxCapital → 0 ≤ maxInventory →
      totalCapital ((fleetMachine env (GlobalMMState.init maxCapital maxInventory)).final
          (fleetInit k paused) ls) ≤ maxCapital ∧
        totalInventory ((fleetMachine env (GlobalMMState.init maxCapital maxInventory)).final
          (fleetInit k paused) ls) ≤ maxInventory := by
  intro h
  exact absurd (h 1 (fun _ => btc15mEnv [1 / 5] 0 75) 50 50 (fun _ => ⟨Dict.empty⟩)
    (fun _ => false) twoPosts (by decide +kernel) (by decide +kernel)).1 (by decide +kernel)

end Instance

end TradingEdge.Analysis
