import Mathlib.Algebra.BigOperators.Group.List.Basic
import TradingEdge.Library.ReadModifyWrite
import TradingEdge.Program.LlmTurns

/-!
# Turns that get lost

The conversation of a session is read, changed and written back by each of its turns, with the
call of the language model in between; the daily usage is only ever added to.  `cellOf` sees a
session as a cell that tasks read and write back, and `no_lost_turn_iff` says in which runs every
turn is in its conversation in the end.
-/

set_option autoImplicit false

namespace TradingEdge.Analysis

open TradingEdge.Model TradingEdge.Program TradingEdge.Library

variable {ι K : Type}

/-! ## What has happened -/

/-- The turns that have written their session, in order. -/
def persistedTurns (es : List (TurnEvent ι K)) : List (ι × ChatResult K) :=
  es.filterMap fun e =>
    match e with
    | .persisted i result => some (i, result)
    | .recorded _ _ _ => none

/-- The turns that have added to a daily usage, in order, with the day. -/
def recordedTurns (es : List (TurnEvent ι K)) : List (ι × ℤ × ChatResult K) :=
  es.filterMap fun e =>
    match e with
    | .persisted _ _ => none
    | .recorded i day result => some (i, day, result)

section Turns

variable (args : ι → TurnArgs)

/-- The turns of a session that have written it. -/
def sessionTurns (es : List (TurnEvent ι K)) (session : String) : List (ι × ChatResult K) :=
  (persistedTurns es).filter fun e => (args e.1).sessionId = session

/-- The turns recorded for a user on a day. -/
def usageTurns (es : List (TurnEvent ι K)) (day : ℤ) (user : String) :
    List (ι × ℤ × ChatResult K) :=
  (recordedTurns es).filter fun e => e.2.1 = day ∧ (args e.1).userId = user

/-- The turn is the first of its session to have written it. -/
def FirstOfSession (es : List (TurnEvent ι K)) (i : ι) : Prop :=
  (sessionTurns args es (args i).sessionId).head?.map Prod.fst = some i

instance [DecidableEq ι] (es : List (TurnEvent ι K)) (i : ι) :
    Decidable (FirstOfSession args es i) :=
  inferInstanceAs (Decidable (_ = _))

/-- No call is under way. -/
def Quiescent (w : LlmWorld ι K) : Prop :=
  ∀ i, w.turns i = .ready ∨ w.turns i = .finished ∨ w.turns i = .failed

variable [DecidableEq ι] [Field K]

/-- Every turn that succeeded is in its conversation and in the usage of its user: its messages
and its numbers, and each session once, with its first turn. -/
structure NoLostTurn (es : List (TurnEvent ι K)) (w : LlmWorld ι K) : Prop where
  messages : ∀ session, ((sessionTurns args es session).flatMap fun e =>
    turnMessages (args e.1) e.2).Subperm ((w.conversations session).elim [] (·.messages))
  tokensIn : ∀ session, (w.conversations session).elim 0 (·.tokensIn) =
    ((sessionTurns args es session).map (·.2.tokensIn)).sum
  tokensOut : ∀ session, (w.conversations session).elim 0 (·.tokensOut) =
    ((sessionTurns args es session).map (·.2.tokensOut)).sum
  cost : ∀ session, (w.conversations session).elim 0 (·.costUsd) =
    ((sessionTurns args es session).map (·.2.costUsd)).sum
  recorded : ∀ i result, (i, result) ∈ persistedTurns es →
    ∃ day, (i, day, result) ∈ recordedTurns es
  usageTokens : ∀ day user, (w.usage (day, user)).elim 0 (·.tokens) =
    ((usageTurns args es day user).map fun e => e.2.2.tokensIn + e.2.2.tokensOut).sum
  usageCost : ∀ day user, (w.usage (day, user)).elim 0 (·.costUsd) =
    ((usageTurns args es day user).map (·.2.2.costUsd)).sum
  usageSessions : ∀ day user, (w.usage (day, user)).elim 0 (·.sessions) =
    (usageTurns args es day user).countP fun e => FirstOfSession args es e.1

/-- A turn that writes its session finds there what it has read. -/
def FindsWhatItRead (w : LlmWorld ι K) (l : ι × TurnInput K) : Prop :=
  ∀ prior result, l.2 = .upserted → w.turns l.1 = .upserting prior result →
    prior = w.conversations (args l.1).sessionId

end Turns

/-! ## What a step can do -/

/-- What a turn has read and not yet written back. -/
def heldBy (s : TurnState K) : Option (Option (Conversation K)) :=
  match s with
  | .checking prior => some prior
  | .loading prior => some prior
  | .chatting prior => some prior
  | .upserting prior _ => some prior
  | _ => none

/-- The turn has not written its session, and may still do so. -/
def Unwritten (s : TurnState K) : Prop :=
  match s with
  | .recording _ _ => False
  | .finished => False
  | _ => True

variable [DecidableEq ι] [Field K] [LinearOrder K]

/-- The kinds of steps of a call. -/
inductive TurnStep (settings : LlmSettings K) (args : ι → TurnArgs) (w : LlmWorld ι K)
    (l : ι × TurnInput K) : LlmWorld ι K → List (TurnEvent ι K) → Prop where
  | idle : TurnStep settings args w l w []
  | reads (hstate : w.turns l.1 = .ready) : TurnStep settings args w l
      (w.setTurn l.1 (.checking (w.conversations (args l.1).sessionId))) []
  | goesOn (s : TurnState K) (hstate : heldBy s = heldBy (w.turns l.1))
      (hbefore : Unwritten (w.turns l.1)) (hafter : Unwritten s) :
      TurnStep settings args w l (w.setTurn l.1 s) []
  | fails (hbefore : Unwritten (w.turns l.1)) :
      TurnStep settings args w l (w.setTurn l.1 .failed) []
  | persists (prior : Option (Conversation K)) (result : ChatResult K)
      (hstate : w.turns l.1 = .upserting prior result) (hlabel : l.2 = .upserted) :
      TurnStep settings args w l
        { conversations := Function.update w.conversations (args l.1).sessionId
            (some (upsertTurn settings (args l.1) prior result))
          usage := w.usage
          turns := Function.update w.turns l.1 (.recording prior result) }
        [.persisted l.1 result]
  | records (prior : Option (Conversation K)) (result : ChatResult K) (today : ℤ)
      (hstate : w.turns l.1 = .recording prior result) :
      TurnStep settings args w l
        { conversations := w.conversations
          usage := Function.update w.usage (today, (args l.1).userId)
            (some (recordTurn (w.usage (today, (args l.1).userId)) prior.isNone result))
          turns := Function.update w.turns l.1 .finished }
        [.recorded l.1 today result]

variable (settings : LlmSettings K) (args : ι → TurnArgs)

/-- Every step is of one of the kinds. -/
theorem runTurnStep_kind (w : LlmWorld ι K) (l : ι × TurnInput K) :
    TurnStep settings args w l (runTurnStep settings args w l).1
      (runTurnStep settings args w l).2 := by
  unfold runTurnStep
  dsimp only
  split
  · rename_i hstate _
    split
    · exact .reads hstate
    · exact .fails (by rw [hstate]; trivial)
  · rename_i prior today hstate _
    split
    · exact .fails (by rw [hstate]; trivial)
    · exact .goesOn _ (by rw [hstate]; rfl) (by rw [hstate]; trivial) trivial
  · rename_i hstate _
    exact .goesOn _ (by rw [hstate]; rfl) (by rw [hstate]; trivial) trivial
  · rename_i hstate _
    exact .goesOn _ (by rw [hstate]; rfl) (by rw [hstate]; trivial) trivial
  · rename_i hstate hlabel
    exact .persists _ _ hstate hlabel
  · rename_i hstate _
    exact .records _ _ _ hstate
  all_goals first
    | exact .idle
    | rename_i hstate _
      exact .fails (by rw [hstate]; trivial)

/-! ## A session as a cell -/

/-- What the turns of a session hold of it. -/
def heldIn (turns : ι → TurnState K) (session : String) (i : ι) :
    Option (Option (Conversation K)) :=
  if (args i).sessionId = session then heldBy (turns i) else none

/-- The conversation of a session as a value that its turns read and write back. -/
def cellOf (w : LlmWorld ι K) (es : List (TurnEvent ι K)) (session : String) :
    Cell ι (Option (Conversation K)) (ι × ChatResult K) where
  value := w.conversations session
  held := heldIn args w.turns session
  log := sessionTurns args es session

/-- What a turn makes of a conversation. -/
def applyTurn (prior : Option (Conversation K)) (e : ι × ChatResult K) :
    Option (Conversation K) :=
  some (upsertTurn settings (args e.1) prior e.2)

/-- The number of turns a conversation has taken in: its messages of the user. -/
def turnCount (c : Option (Conversation K)) : ℕ :=
  (c.elim [] (·.messages)).countP fun m => m.role = .user

omit [DecidableEq ι] [LinearOrder K] in
/-- A turn adds one message of the user. -/
theorem turnCount_applyTurn (prior : Option (Conversation K)) (e : ι × ChatResult K) :
    turnCount (applyTurn settings args prior e) = turnCount prior + 1 := by
  have hhistory : (historyOf prior).countP (fun m => m.role = .user) = turnCount prior := by
    rw [historyOf, turnCount, List.countP_filter]
    apply List.countP_congr
    intro m _
    cases m.role <;> simp
  simp [turnCount, applyTurn, upsertTurn, turnMessages, hhistory]

omit [Field K] [LinearOrder K] in
/-- A change of one turn changes what its own session holds. -/
theorem heldIn_update (turns : ι → TurnState K) (i : ι) (s : TurnState K) (session : String) :
    heldIn args (Function.update turns i s) session =
      if (args i).sessionId = session then
        Function.update (heldIn args turns session) i (heldBy s)
      else heldIn args turns session := by
  funext j
  by_cases hj : j = i
  · subst hj
    split <;> simp_all [heldIn]
  · split <;> simp [heldIn, Function.update_of_ne hj]

omit [Field K] [LinearOrder K] in
/-- A turn that goes on with what it holds changes nothing for its session. -/
theorem heldIn_update_of_eq (turns : ι → TurnState K) (i : ι) (s : TurnState K)
    (session : String) (h : heldBy s = heldBy (turns i)) :
    heldIn args (Function.update turns i s) session = heldIn args turns session := by
  rw [heldIn_update]
  split
  · rename_i hsession
    rw [h]
    funext j
    by_cases hj : j = i
    · subst hj
      simp [heldIn, hsession]
    · rw [Function.update_of_ne hj]
  · rfl

omit [DecidableEq ι] [Field K] [LinearOrder K] in
/-- The turns of a session in a run continued. -/
@[simp] theorem sessionTurns_append (es new : List (TurnEvent ι K)) (session : String) :
    sessionTurns args (es ++ new) session =
      sessionTurns args es session ++ sessionTurns args new session := by
  simp [sessionTurns, persistedTurns]

omit [LinearOrder K] in
/-- A step leaves a session alone or is a step of its cell, which finds what it has read if the
turn does. -/
theorem cellOf_step {w w' : LlmWorld ι K} {l : ι × TurnInput K} {new : List (TurnEvent ι K)}
    (h : TurnStep settings args w l w' new) (es : List (TurnEvent ι K)) (session : String) :
    cellOf args w' (es ++ new) session = cellOf args w es session ∨
      ∃ op, cellOf args w' (es ++ new) session =
          (cellOf args w es session).step (applyTurn settings args) op ∧
        (FindsWhatItRead args w l → (cellOf args w es session).Finds op) := by
  cases h with
  | idle =>
    left
    rw [List.append_nil]
  | reads hstate =>
    rw [List.append_nil]
    by_cases hsession : (args l.1).sessionId = session
    · refine Or.inr ⟨.reads l.1, ?_, fun _ => trivial⟩
      simp [cellOf, Cell.step, LlmWorld.setTurn, heldIn_update, hsession, heldBy]
    · left
      simp [cellOf, LlmWorld.setTurn, heldIn_update, hsession]
  | goesOn s hstate hbefore hafter =>
    left
    rw [List.append_nil]
    simp [cellOf, LlmWorld.setTurn, heldIn_update_of_eq args w.turns l.1 s session hstate]
  | fails hbefore =>
    rw [List.append_nil]
    by_cases hsession : (args l.1).sessionId = session
    · refine Or.inr ⟨.drops l.1, ?_, fun _ => trivial⟩
      simp [cellOf, Cell.step, LlmWorld.setTurn, heldIn_update, hsession, heldBy]
    · left
      simp [cellOf, LlmWorld.setTurn, heldIn_update, hsession]
  | persists prior result hstate hlabel =>
    by_cases hsession : (args l.1).sessionId = session
    · subst hsession
      have hheld : heldIn args w.turns (args l.1).sessionId l.1 = some prior := by
        simp [heldIn, hstate, heldBy]
      refine Or.inr ⟨.writes l.1 (l.1, result), ?_, ?_⟩
      · simp [cellOf, Cell.step, hheld, heldIn_update, heldBy, applyTurn, sessionTurns,
          persistedTurns]
      · intro hfinds v hv
        have hprior : v = prior := by
          simpa [cellOf, hheld, eq_comm] using hv
        rw [hprior]
        exact hfinds prior result hlabel hstate
    · left
      simp [cellOf, heldIn_update, hsession, sessionTurns, persistedTurns,
        Function.update_of_ne (Ne.symm hsession)]
  | records prior result today hstate =>
    left
    simp [cellOf, heldIn_update_of_eq args w.turns l.1 .finished session (by rw [hstate]; rfl),
      sessionTurns, persistedTurns]

omit [LinearOrder K] in
/-- A step that finds what its turn has read keeps a session current. -/
theorem current_cellOf_step {w w' : LlmWorld ι K} {l : ι × TurnInput K}
    {new : List (TurnEvent ι K)} (h : TurnStep settings args w l w' new)
    (hfinds : FindsWhatItRead args w l) {es : List (TurnEvent ι K)} {session : String}
    (hcurrent : Cell.Current (applyTurn settings args) turnCount none
      (cellOf args w es session)) :
    Cell.Current (applyTurn settings args) turnCount none (cellOf args w' (es ++ new) session) := by
  rcases cellOf_step settings args h es session with heq | ⟨op, heq, hop⟩
  · rwa [heq]
  · rw [heq]
    exact hcurrent.step (turnCount_applyTurn settings args) op (hop hfinds)

omit [LinearOrder K] in
/-- A session that is behind stays behind. -/
theorem behind_cellOf_step {w w' : LlmWorld ι K} {l : ι × TurnInput K}
    {new : List (TurnEvent ι K)} (h : TurnStep settings args w l w' new)
    {es : List (TurnEvent ι K)} {session : String}
    (hbehind : Cell.Behind turnCount none (cellOf args w es session)) :
    Cell.Behind turnCount none (cellOf args w' (es ++ new) session) := by
  rcases cellOf_step settings args h es session with heq | ⟨op, heq, -⟩
  · rwa [heq]
  · rw [heq]
    exact hbehind.step (turnCount_applyTurn settings args) op

/-! ## What always holds -/

/-- The calls and what they have done belong together. -/
structure TurnsTraced (w : LlmWorld ι K) (es : List (TurnEvent ι K)) : Prop where
  unwritten : ∀ i, Unwritten (w.turns i) → ∀ result, (i, result) ∉ persistedTurns es
  recording : ∀ i prior result, w.turns i = .recording prior result →
    (i, result) ∈ persistedTurns es
  persisted : ∀ i result, (i, result) ∈ persistedTurns es →
    (∃ prior, w.turns i = .recording prior result) ∨ ∃ day, (i, day, result) ∈ recordedTurns es
  recorded : ∀ i day result, (i, day, result) ∈ recordedTurns es →
    (i, result) ∈ persistedTurns es
  usageTokens : ∀ day user, (w.usage (day, user)).elim 0 (·.tokens) =
    ((usageTurns args es day user).map fun e => e.2.2.tokensIn + e.2.2.tokensOut).sum
  usageCost : ∀ day user, (w.usage (day, user)).elim 0 (·.costUsd) =
    ((usageTurns args es day user).map (·.2.2.costUsd)).sum

omit [DecidableEq ι] [Field K] [LinearOrder K] in
/-- The turns written in a run continued. -/
@[simp] theorem persistedTurns_append (es new : List (TurnEvent ι K)) :
    persistedTurns (es ++ new) = persistedTurns es ++ persistedTurns new :=
  List.filterMap_append

omit [DecidableEq ι] [Field K] [LinearOrder K] in
/-- The turns recorded in a run continued. -/
@[simp] theorem recordedTurns_append (es new : List (TurnEvent ι K)) :
    recordedTurns (es ++ new) = recordedTurns es ++ recordedTurns new :=
  List.filterMap_append

omit [DecidableEq ι] [Field K] [LinearOrder K] in
/-- The turns of a day and a user in a run continued. -/
@[simp] theorem usageTurns_append (es new : List (TurnEvent ι K)) (day : ℤ) (user : String) :
    usageTurns args (es ++ new) day user =
      usageTurns args es day user ++ usageTurns args new day user := by
  simp [usageTurns]

omit [DecidableEq ι] [LinearOrder K] in
/-- Before the first step nothing is written. -/
theorem turnsTraced_start : TurnsTraced args (LlmWorld.start : LlmWorld ι K) [] := by
  refine ⟨?_, ?_, ?_, ?_, ?_, ?_⟩ <;>
    simp [LlmWorld.start, persistedTurns, recordedTurns, usageTurns]

omit [DecidableEq ι] [Field K] [LinearOrder K] in
/-- A recorded turn is one of its day and user. -/
theorem usageTurns_recorded (i : ι) (today : ℤ) (result : ChatResult K) (day : ℤ)
    (user : String) :
    usageTurns args [.recorded i today result] day user =
      if (today, (args i).userId) = (day, user) then [(i, today, result)] else [] := by
  simp only [usageTurns, recordedTurns, List.filterMap_cons, List.filterMap_nil,
    List.filter_cons, List.filter_nil, Prod.mk.injEq, decide_eq_true_eq]

omit [DecidableEq ι] [Field K] [LinearOrder K] in
/-- One row of the usage changes. -/
theorem usage_update (usage : ℤ × String → Option (DailyUsage K)) (key key' : ℤ × String)
    (f : Option (DailyUsage K) → DailyUsage K) :
    Function.update usage key (some (f (usage key))) key' =
      if key = key' then some (f (usage key')) else usage key' := by
  by_cases h : key = key'
  · subst h
    rw [Function.update_self, if_pos rfl]
  · rw [Function.update_of_ne (Ne.symm h), if_neg h]

omit [Field K] [LinearOrder K] in
/-- A turn that is recording after another one moved on was so before. -/
theorem recording_of_setTurn {w : LlmWorld ι K} {i j : ι} {s : TurnState K} (hafter : Unwritten s)
    {prior : Option (Conversation K)} {result : ChatResult K}
    (h : (w.setTurn i s).turns j = .recording prior result) : w.turns j = .recording prior result := by
  by_cases hji : j = i
  · subst hji
    simp only [LlmWorld.setTurn, Function.update_self] at h
    subst h
    cases hafter
  · simpa only [LlmWorld.setTurn, Function.update_of_ne hji] using h

omit [LinearOrder K] in
/-- A call that moves on before it has written leaves everything as it is. -/
theorem TurnsTraced.setTurn {w : LlmWorld ι K} {es : List (TurnEvent ι K)}
    (h : TurnsTraced args w es) {i : ι} {s : TurnState K} (hbefore : Unwritten (w.turns i))
    (hafter : Unwritten s) : TurnsTraced args (w.setTurn i s) es := by
  have hother : ∀ j prior result, w.turns j = .recording prior result → j ≠ i := by
    rintro j prior result hj rfl
    rw [hj] at hbefore
    exact hbefore
  refine ⟨?_, ?_, ?_, h.recorded, h.usageTokens, h.usageCost⟩
  · intro j hj
    by_cases hji : j = i
    · subst hji
      exact h.unwritten j hbefore
    · simp only [LlmWorld.setTurn, Function.update_of_ne hji] at hj
      exact h.unwritten j hj
  · intro j prior result hj
    exact h.recording j prior result (recording_of_setTurn hafter hj)
  · intro j result hj
    rcases h.persisted j result hj with ⟨prior, hstate⟩ | hday
    · refine Or.inl ⟨prior, ?_⟩
      rw [← hstate]
      exact Function.update_of_ne (hother j prior result hstate) _ _
    · exact Or.inr hday

omit [LinearOrder K] in
/-- A call that writes its conversation. -/
theorem TurnsTraced.persists {w : LlmWorld ι K} {es : List (TurnEvent ι K)}
    (h : TurnsTraced args w es) {i : ι} (hbefore : Unwritten (w.turns i))
    (conversations : String → Option (Conversation K)) (prior : Option (Conversation K))
    (result : ChatResult K) :
    TurnsTraced args
      { w with
        conversations := conversations
        turns := Function.update w.turns i (.recording prior result) }
      (es ++ [.persisted i result]) := by
  have hnew : ∀ r, (i, r) ∉ persistedTurns es := h.unwritten i hbefore
  have hpersisted : persistedTurns (es ++ [.persisted i result]) =
      persistedTurns es ++ [(i, result)] := persistedTurns_append es _
  have hrecorded : recordedTurns (es ++ [.persisted i result]) = recordedTurns es := by
    rw [recordedTurns_append]
    exact List.append_nil _
  have husage : ∀ day user, usageTurns args (es ++ [.persisted i result]) day user =
      usageTurns args es day user := by
    intro day user
    rw [usageTurns, usageTurns, hrecorded]
  refine ⟨?_, ?_, ?_, ?_, ?_, ?_⟩
  · intro j hj r hmem
    by_cases hji : j = i
    · subst hji
      simp only [Function.update_self] at hj
      exact hj
    · simp only [Function.update_of_ne hji] at hj
      rw [hpersisted] at hmem
      rcases List.mem_append.mp hmem with hold | hlast
      · exact h.unwritten j hj r hold
      · exact hji (Prod.ext_iff.mp (List.mem_singleton.mp hlast)).1
  · intro j prior' r hj
    rw [hpersisted]
    by_cases hji : j = i
    · subst hji
      simp only [Function.update_self, TurnState.recording.injEq] at hj
      rw [hj.2]
      exact List.mem_append_right _ (List.mem_singleton_self _)
    · simp only [Function.update_of_ne hji] at hj
      exact List.mem_append_left _ (h.recording j prior' r hj)
  · intro j r hmem
    rw [hpersisted] at hmem
    rw [hrecorded]
    rcases List.mem_append.mp hmem with hold | hlast
    · have hji : j ≠ i := by
        rintro rfl
        exact hnew r hold
      rcases h.persisted j r hold with ⟨prior', hj⟩ | hday
      · left
        refine ⟨prior', ?_⟩
        simp only [Function.update_of_ne hji]
        exact hj
      · exact Or.inr hday
    · obtain ⟨rfl, rfl⟩ := Prod.mk.inj (List.mem_singleton.mp hlast)
      exact Or.inl ⟨prior, Function.update_self _ _ _⟩
  · intro j day r hmem
    rw [hrecorded] at hmem
    rw [hpersisted]
    exact List.mem_append_left _ (h.recorded j day r hmem)
  · intro day user
    rw [husage]
    exact h.usageTokens day user
  · intro day user
    rw [husage]
    exact h.usageCost day user

omit [DecidableEq ι] [LinearOrder K] in
/-- A figure of the usage that a turn adds to stays the sum over the turns recorded. -/
theorem usage_sum_recorded {M : Type} [AddCommMonoid M] (figure : DailyUsage K → M)
    (share : ChatResult K → M) (usage : ℤ × String → Option (DailyUsage K))
    (es : List (TurnEvent ι K)) (i : ι) (today : ℤ) (isFirst : Bool) (result : ChatResult K)
    (hadd : ∀ u : Option (DailyUsage K),
      figure (recordTurn u isFirst result) = u.elim 0 figure + share result)
    (day : ℤ) (user : String)
    (hbefore : (usage (day, user)).elim 0 figure =
      ((usageTurns args es day user).map fun e => share e.2.2).sum) :
    (Function.update usage (today, (args i).userId)
        (some (recordTurn (usage (today, (args i).userId)) isFirst result)) (day, user)).elim 0
          figure =
      ((usageTurns args (es ++ [.recorded i today result]) day user).map
        fun e => share e.2.2).sum := by
  rw [usageTurns_append, usageTurns_recorded,
    usage_update usage _ (day, user) fun u => recordTurn u isFirst result]
  split
  · rw [List.map_append, List.sum_append, ← hbefore]
    simp [hadd]
  · rw [List.append_nil]
    exact hbefore

omit [LinearOrder K] in
/-- A call that records its usage. -/
theorem TurnsTraced.records {w : LlmWorld ι K} {es : List (TurnEvent ι K)}
    (h : TurnsTraced args w es) {i : ι} {prior : Option (Conversation K)} {result : ChatResult K}
    (hstate : w.turns i = .recording prior result) (today : ℤ) :
    TurnsTraced args
      { w with
        usage := Function.update w.usage (today, (args i).userId)
          (some (recordTurn (w.usage (today, (args i).userId)) prior.isNone result))
        turns := Function.update w.turns i .finished }
      (es ++ [.recorded i today result]) := by
  have hpersisted : persistedTurns (es ++ [.recorded i today result]) = persistedTurns es := by
    rw [persistedTurns_append]
    exact List.append_nil _
  have hrecorded : recordedTurns (es ++ [.recorded i today result]) =
      recordedTurns es ++ [(i, today, result)] := recordedTurns_append es _
  refine ⟨?_, ?_, ?_, ?_, ?_, ?_⟩
  · intro j hj r hmem
    rw [hpersisted] at hmem
    by_cases hji : j = i
    · subst hji
      simp only [Function.update_self] at hj
      exact hj
    · simp only [Function.update_of_ne hji] at hj
      exact h.unwritten j hj r hmem
  · intro j prior' r hj
    rw [hpersisted]
    by_cases hji : j = i
    · subst hji
      simp only [Function.update_self] at hj
      cases hj
    · simp only [Function.update_of_ne hji] at hj
      exact h.recording j prior' r hj
  · intro j r hmem
    rw [hpersisted] at hmem
    rw [hrecorded]
    rcases h.persisted j r hmem with ⟨prior', hj⟩ | ⟨day, hday⟩
    · by_cases hji : j = i
      · subst hji
        rw [hstate, TurnState.recording.injEq] at hj
        rw [hj.2]
        exact Or.inr ⟨today, List.mem_append_right _ (List.mem_singleton_self _)⟩
      · left
        refine ⟨prior', ?_⟩
        simp only [Function.update_of_ne hji]
        exact hj
    · exact Or.inr ⟨day, List.mem_append_left _ hday⟩
  · intro j day r hmem
    rw [hrecorded] at hmem
    rw [hpersisted]
    rcases List.mem_append.mp hmem with hold | hlast
    · exact h.recorded j day r hold
    · obtain ⟨rfl, htail⟩ := Prod.mk.inj (List.mem_singleton.mp hlast)
      rw [(Prod.mk.inj htail).2]
      exact h.recording _ prior result hstate
  · intro day user
    exact usage_sum_recorded args (·.tokens) (fun r => r.tokensIn + r.tokensOut) w.usage es i today
      prior.isNone result (fun u => by simp [recordTurn]) day user (h.usageTokens day user)
  · intro day user
    exact usage_sum_recorded args (·.costUsd) (·.costUsd) w.usage es i today prior.isNone result
      (fun u => by simp [recordTurn]) day user (h.usageCost day user)

omit [LinearOrder K] in
/-- Every step keeps the calls and what they have done together. -/
theorem TurnsTraced.step {w w' : LlmWorld ι K} {l : ι × TurnInput K}
    {es new : List (TurnEvent ι K)} (h : TurnsTraced args w es)
    (hstep : TurnStep settings args w l w' new) : TurnsTraced args w' (es ++ new) := by
  cases hstep with
  | idle => rwa [List.append_nil]
  | reads hstate =>
    rw [List.append_nil]
    exact h.setTurn args (by rw [hstate]; trivial) trivial
  | goesOn s hstate hbefore hafter =>
    rw [List.append_nil]
    exact h.setTurn args hbefore hafter
  | fails hbefore =>
    rw [List.append_nil]
    exact h.setTurn args hbefore trivial
  | persists prior result hstate hlabel =>
    exact h.persists args (by rw [hstate]; trivial) _ prior result
  | records prior result today hstate => exact h.records args hstate today

/-! ## First turns -/

/-- A turn takes itself for the first of its session exactly when it is, and the usage counts
each session with its first turn. -/
structure FirstsTraced (w : LlmWorld ι K) (es : List (TurnEvent ι K)) : Prop where
  recording : ∀ i prior result, w.turns i = .recording prior result →
    (prior.isNone = true ↔ FirstOfSession args es i)
  sessions : ∀ day user, (w.usage (day, user)).elim 0 (·.sessions) =
    (usageTurns args es day user).countP fun e => FirstOfSession args es e.1

omit [DecidableEq ι] [Field K] [LinearOrder K] in
/-- The turns of a session are those written to it. -/
theorem mem_sessionTurns {es : List (TurnEvent ι K)} {session : String}
    {e : ι × ChatResult K} :
    e ∈ sessionTurns args es session ↔
      e ∈ persistedTurns es ∧ (args e.1).sessionId = session := by
  simp [sessionTurns]

omit [DecidableEq ι] [Field K] [LinearOrder K] in
/-- Which turn was the first does not change once there is one. -/
theorem firstOfSession_append {es : List (TurnEvent ι K)} {i : ι} {result : ChatResult K}
    (h : (i, result) ∈ persistedTurns es) (new : List (TurnEvent ι K)) :
    FirstOfSession args (es ++ new) i ↔ FirstOfSession args es i := by
  have hmem : (i, result) ∈ sessionTurns args es (args i).sessionId :=
    (mem_sessionTurns args).mpr ⟨h, rfl⟩
  rw [FirstOfSession, FirstOfSession, sessionTurns_append,
    List.head?_append_of_ne_nil _ (List.ne_nil_of_mem hmem)]

omit [LinearOrder K] in
/-- The counted turns stay what they were. -/
theorem countP_first_append {w : LlmWorld ι K} {es : List (TurnEvent ι K)}
    (h : TurnsTraced args w es) (new : List (TurnEvent ι K)) (day : ℤ) (user : String) :
    ((usageTurns args es day user).countP fun e => FirstOfSession args (es ++ new) e.1) =
      (usageTurns args es day user).countP fun e => FirstOfSession args es e.1 := by
  apply List.countP_congr
  rintro ⟨i, day', result⟩ he
  have hrecorded : (i, day', result) ∈ recordedTurns es := (List.mem_filter.mp he).1
  simp only [decide_eq_true_eq]
  exact firstOfSession_append args (h.recorded i day' result hrecorded) new

omit [DecidableEq ι] [LinearOrder K] in
/-- Nothing is stored of a session exactly when no turn has written it. -/
theorem foldl_applyTurn_eq_none_iff (log : List (ι × ChatResult K)) :
    log.foldl (applyTurn settings args) none = none ↔ log = [] := by
  cases log using List.reverseRecOn with
  | nil => simp
  | append_singleton log e =>
    rw [List.foldl_append]
    simp [applyTurn]

omit [Field K] [LinearOrder K] in
/-- A call that goes on without writing keeps the first turns. -/
theorem FirstsTraced.setTurn {w : LlmWorld ι K} {es : List (TurnEvent ι K)}
    (h : FirstsTraced args w es) (i : ι) {s : TurnState K} (hafter : Unwritten s) :
    FirstsTraced args (w.setTurn i s) es := by
  refine ⟨?_, h.sessions⟩
  intro j prior result hj
  exact h.recording j prior result (recording_of_setTurn hafter hj)

omit [DecidableEq ι] [LinearOrder K] in
/-- A turn about to write has read nothing exactly when it will be the first of its session, if
what it has read is still there. -/
theorem isNone_iff_firstOfSession {w : LlmWorld ι K} {es : List (TurnEvent ι K)}
    (htraced : TurnsTraced args w es) {i : ι} (hbefore : Unwritten (w.turns i))
    (hcurrent : Cell.Current (applyTurn settings args) turnCount none
      (cellOf args w es (args i).sessionId)) (prior : Option (Conversation K))
    (hprior : prior = w.conversations (args i).sessionId) (result : ChatResult K) :
    prior.isNone = true ↔ FirstOfSession args (es ++ [.persisted i result]) i := by
  have hvalue := hcurrent.value_eq
  simp only [cellOf] at hvalue
  have hnone : prior = none ↔ sessionTurns args es (args i).sessionId = [] := by
    rw [hprior, hvalue]
    exact foldl_applyTurn_eq_none_iff settings args _
  rw [Option.isNone_iff_eq_none, hnone, FirstOfSession, sessionTurns_append]
  cases hlog : sessionTurns args es (args i).sessionId with
  | nil => simp [sessionTurns, persistedTurns]
  | cons e rest =>
    have he : e ∈ persistedTurns es := by
      have hmem : e ∈ sessionTurns args es (args i).sessionId := by
        rw [hlog]
        exact List.mem_cons_self
      exact ((mem_sessionTurns args).mp hmem).1
    have hne : e.1 ≠ i := by
      intro heq
      apply htraced.unwritten i hbefore e.2
      rw [← heq]
      exact he
    simp [hne]

omit [LinearOrder K] in
/-- A step that finds what it has read keeps the first turns. -/
theorem FirstsTraced.step {w w' : LlmWorld ι K} {l : ι × TurnInput K}
    {es new : List (TurnEvent ι K)} (h : FirstsTraced args w es)
    (htraced : TurnsTraced args w es)
    (hcurrent : ∀ session, Cell.Current (applyTurn settings args) turnCount none
      (cellOf args w es session))
    (hfinds : FindsWhatItRead args w l) (hstep : TurnStep settings args w l w' new) :
    FirstsTraced args w' (es ++ new) := by
  cases hstep with
  | idle => rwa [List.append_nil]
  | reads hstate =>
    rw [List.append_nil]
    exact h.setTurn args l.1 trivial
  | goesOn s hstate hbefore hafter =>
    rw [List.append_nil]
    exact h.setTurn args l.1 hafter
  | fails hbefore =>
    rw [List.append_nil]
    exact h.setTurn args l.1 trivial
  | persists prior result hstate hlabel =>
    refine ⟨?_, ?_⟩
    · intro i prior' result' hi
      by_cases hil : i = l.1
      · subst hil
        simp only [Function.update_self, TurnState.recording.injEq] at hi
        obtain ⟨rfl, rfl⟩ := hi
        exact isNone_iff_firstOfSession settings args htraced (by rw [hstate]; trivial)
          (hcurrent _) prior (hfinds prior result hlabel hstate) result
      · simp only [Function.update_of_ne hil] at hi
        rw [firstOfSession_append args (htraced.recording i prior' result' hi)]
        exact h.recording i prior' result' hi
    · intro day user
      have hnil : usageTurns args [.persisted l.1 result] day user = [] := rfl
      rw [usageTurns_append, hnil, List.append_nil, countP_first_append args htraced]
      exact h.sessions day user
  | records prior result today hstate =>
    have hpersisted := htraced.recording l.1 prior result hstate
    refine ⟨?_, ?_⟩
    · intro i prior' result' hi
      by_cases hil : i = l.1
      · subst hil
        simp only [Function.update_self] at hi
        cases hi
      · simp only [Function.update_of_ne hil] at hi
        rw [firstOfSession_append args (htraced.recording i prior' result' hi)]
        exact h.recording i prior' result' hi
    · intro day user
      rw [usageTurns_append, List.countP_append, countP_first_append args htraced,
        usageTurns_recorded]
      dsimp only
      rw [usage_update w.usage _ (day, user) fun u => recordTurn u prior.isNone result]
      have hbefore := h.sessions day user
      split
      · rw [List.countP_singleton, Nat.cast_add, ← hbefore]
        have hfirst := h.recording l.1 prior result hstate
        rw [← firstOfSession_append args hpersisted [.recorded l.1 today result]] at hfirst
        simp [recordTurn, hfirst]
      · rw [List.countP_nil, Nat.add_zero]
        exact hbefore

/-! ## What a conversation holds -/

omit [DecidableEq ι] [LinearOrder K] in
/-- The conversation that all turns of a session make, one after the other. -/
theorem foldl_applyTurn_content (log : List (ι × ChatResult K)) :
    let c := log.foldl (applyTurn settings args) none
    c.elim [] (·.messages) = (log.flatMap fun e => turnMessages (args e.1) e.2) ∧
      c.elim 0 (·.tokensIn) = (log.map (·.2.tokensIn)).sum ∧
      c.elim 0 (·.tokensOut) = (log.map (·.2.tokensOut)).sum ∧
      c.elim 0 (·.costUsd) = (log.map (·.2.costUsd)).sum := by
  induction log using List.reverseRecOn with
  | nil => simp
  | append_singleton log e ih =>
    obtain ⟨hmessages, htokensIn, htokensOut, hcost⟩ := ih
    have hhistory : historyOf (log.foldl (applyTurn settings args) none) =
        log.flatMap fun e => turnMessages (args e.1) e.2 := by
      rw [historyOf, hmessages, List.filter_eq_self]
      intro m hm
      obtain ⟨e, -, he⟩ := List.mem_flatMap.mp hm
      simp only [turnMessages, List.mem_cons, List.not_mem_nil, or_false] at he
      rcases he with rfl | rfl <;> rfl
    simp only [List.foldl_append, List.foldl_cons, List.foldl_nil, applyTurn, Option.elim_some,
      upsertTurn, List.flatMap_append, List.map_append, List.sum_append]
    refine ⟨?_, ?_, ?_, ?_⟩
    · simp [hhistory]
    · simp [← htokensIn]
    · simp [← htokensOut]
    · simp [← hcost]

omit [DecidableEq ι] [Field K] [LinearOrder K] in
/-- Every turn has one message of the user. -/
theorem countP_turnMessages (log : List (ι × ChatResult K)) :
    (log.flatMap fun e => turnMessages (args e.1) e.2).countP (fun m => m.role = .user) =
      log.length := by
  induction log with
  | nil => rfl
  | cons e rest ih =>
    rw [List.flatMap_cons, List.countP_append, ih, List.length_cons, Nat.add_comm]
    simp [turnMessages]

omit [LinearOrder K] in
/-- With every session current, no turn is lost. -/
theorem noLostTurn_of_current {w : LlmWorld ι K} {es : List (TurnEvent ι K)}
    (htraced : TurnsTraced args w es) (hfirsts : FirstsTraced args w es)
    (hcurrent : ∀ session, Cell.Current (applyTurn settings args) turnCount none
      (cellOf args w es session)) (hquiet : Quiescent w) : NoLostTurn args es w := by
  have hcontent : ∀ session, w.conversations session =
      (sessionTurns args es session).foldl (applyTurn settings args) none :=
    fun session => (hcurrent session).value_eq
  have hfold := fun session =>
    foldl_applyTurn_content settings args (sessionTurns args es session)
  refine ⟨?_, ?_, ?_, ?_, ?_, htraced.usageTokens, htraced.usageCost, hfirsts.sessions⟩
  · intro session
    rw [hcontent, (hfold session).1]
  · intro session
    rw [hcontent, (hfold session).2.1]
  · intro session
    rw [hcontent, (hfold session).2.2.1]
  · intro session
    rw [hcontent, (hfold session).2.2.2]
  · intro i result hmem
    rcases htraced.persisted i result hmem with ⟨prior, hstate⟩ | hday
    · rcases hquiet i with h | h | h <;> rw [hstate] at h <;> cases h
    · exact hday

omit [LinearOrder K] in
/-- A session that is behind lacks a message. -/
theorem not_noLostTurn_of_behind {w : LlmWorld ι K} {es : List (TurnEvent ι K)}
    {session : String}
    (h : Cell.Behind turnCount none (cellOf args w es session)) : ¬NoLostTurn args es w := by
  intro hno
  have hlt : turnCount (w.conversations session) <
      turnCount (none : Option (Conversation K)) + (sessionTurns args es session).length :=
    h.size_lt
  have hle := (hno.messages session).countP_le fun m => m.role = .user
  rw [countP_turnMessages] at hle
  have hzero : turnCount (none : Option (Conversation K)) = 0 := rfl
  rw [hzero, turnCount] at hlt
  omega

/-! ## Runs -/

/-- A turn that writes without finding what it has read leaves its session behind. -/
theorem behind_of_not_finds {w : LlmWorld ι K} {l : ι × TurnInput K}
    (es : List (TurnEvent ι K))
    (hcurrent : ∀ session, Cell.Current (applyTurn settings args) turnCount none
      (cellOf args w es session)) (hfinds : ¬FindsWhatItRead args w l) :
    ∃ session, Cell.Behind turnCount none
      (cellOf args (runTurnStep settings args w l).1 (es ++ (runTurnStep settings args w l).2)
        session) := by
  simp only [FindsWhatItRead, not_forall] at hfinds
  obtain ⟨prior, result, hlabel, hstate, hne⟩ := hfinds
  refine ⟨(args l.1).sessionId, ?_⟩
  have hheld : (cellOf args w es (args l.1).sessionId).held l.1 = some prior := by
    simp [cellOf, heldIn, hstate, heldBy]
  have hnot : ¬(cellOf args w es (args l.1).sessionId).Finds (.writes l.1 (l.1, result)) :=
    fun h => hne (h prior hheld)
  have hbehind := (hcurrent _).step_behind (turnCount_applyTurn settings args) _ hnot
  have hstep : cellOf args (runTurnStep settings args w l).1
      (es ++ (runTurnStep settings args w l).2) (args l.1).sessionId =
      (cellOf args w es (args l.1).sessionId).step (applyTurn settings args)
        (.writes l.1 (l.1, result)) := by
    simp only [Cell.step, hheld]
    simp [runTurnStep, hstate, hlabel, cellOf, heldIn_update, heldBy, applyTurn, sessionTurns,
      persistedTurns]
  rwa [hstep]

/-- **Runs of turns.** Either every turn has found what it had read, and all sessions are
current, or one has not, and a session is behind. -/
theorem current_or_behind (ls : List (ι × TurnInput K)) :
    let m := llmMachine settings args
    TurnsTraced args (m.final LlmWorld.start ls) (m.trace LlmWorld.start ls) ∧
      (m.Along (FindsWhatItRead args) LlmWorld.start ls ∧
          FirstsTraced args (m.final LlmWorld.start ls) (m.trace LlmWorld.start ls) ∧
          (∀ session, Cell.Current (applyTurn settings args) turnCount none
            (cellOf args (m.final LlmWorld.start ls) (m.trace LlmWorld.start ls) session)) ∨
        ¬m.Along (FindsWhatItRead args) LlmWorld.start ls ∧
          ∃ session, Cell.Behind turnCount none
            (cellOf args (m.final LlmWorld.start ls) (m.trace LlmWorld.start ls) session)) := by
  intro m
  induction ls using List.reverseRecOn with
  | nil =>
    refine ⟨turnsTraced_start args, Or.inl ⟨Obeys.nil, ⟨?_, ?_⟩, ?_⟩⟩
    · intro i prior result h
      cases h
    · intro day user
      rfl
    · intro session
      have hstart : cellOf args (LlmWorld.start : LlmWorld ι K) [] session =
          ⟨none, fun _ => none, []⟩ := by
        simp [cellOf, LlmWorld.start, heldIn, heldBy, sessionTurns, persistedTurns,
          funext_iff]
      change Cell.Current _ _ _ (cellOf args (LlmWorld.start : LlmWorld ι K) [] session)
      rw [hstart]
      exact Cell.current_init _ _ _
  | append_singleton pre l ih =>
    obtain ⟨htraced, hcases⟩ := ih
    have hkind := runTurnStep_kind settings args (m.final LlmWorld.start pre) l
    rw [Machine.final_concat, Machine.trace_concat]
    refine ⟨htraced.step settings args hkind, ?_⟩
    rcases hcases with ⟨halong, hfirsts, hcurrent⟩ | ⟨hnot, session, hbehind⟩
    · by_cases hfinds : FindsWhatItRead args (m.final LlmWorld.start pre) l
      · refine Or.inl ⟨(Obeys.concat_iff pre l).mpr ⟨halong, hfinds⟩,
          hfirsts.step settings args htraced hcurrent hfinds hkind, ?_⟩
        exact fun session => current_cellOf_step settings args hkind hfinds (hcurrent session)
      · right
        refine ⟨fun h => hfinds ((Obeys.concat_iff pre l).mp h).2, ?_⟩
        exact behind_of_not_finds settings args _ hcurrent hfinds
    · right
      refine ⟨fun h => hnot ((Obeys.concat_iff pre l).mp h).1, session, ?_⟩
      exact behind_cellOf_step settings args hkind hbehind

/-- **No lost turn.** For any calls in any order, once none is under way: every turn is in its
conversation and in the usage, exactly when each turn that wrote its session found there what it
had read.
SOURCE: llm/orchestrator.py:40-112, llm/store.py:31-98, llm/rate_limit.py:54-106 -/
theorem no_lost_turn_iff (ls : List (ι × TurnInput K)) :
    let m := llmMachine settings args
    (Quiescent (m.final LlmWorld.start ls) →
        NoLostTurn args (m.trace LlmWorld.start ls) (m.final LlmWorld.start ls)) ↔
      (Quiescent (m.final LlmWorld.start ls) →
        m.Along (FindsWhatItRead args) LlmWorld.start ls) := by
  intro m
  refine imp_congr_right fun hquiet => ?_
  obtain ⟨htraced, hcases⟩ := current_or_behind settings args ls
  rcases hcases with ⟨halong, hfirsts, hcurrent⟩ | ⟨hnot, session, hbehind⟩
  · exact iff_of_true (noLostTurn_of_current settings args htraced hfirsts hcurrent hquiet)
      halong
  · exact iff_of_false (not_noLostTurn_of_behind args hbehind) hnot

/-! ## Two tabs -/

def tabSettings : LlmSettings ℚ where
  defaultModel := "small"
  allowed _ := true
  maxSessionsPerDay := 10
  maxTokensPerSession := 1000
  maxDailyCostUsd := 1

/-- Two questions in one session. -/
def tabArgs (i : Bool) : TurnArgs where
  sessionId := "tab"
  userId := "web"
  message := if i then "second" else "first"
  contextRefs := some []
  model := none

/-- The two calls side by side: both read, both are answered, and both write. -/
def tabRun : List (Bool × TurnInput ℚ) :=
  [(false, .conversationRead), (true, .conversationRead), (false, .usageRead 0),
    (true, .usageRead 0), (false, .contextsLoaded), (true, .contextsLoaded),
    (false, .replied ⟨"a", 1, 1, 0⟩), (true, .replied ⟨"b", 1, 1, 0⟩), (false, .upserted),
    (true, .upserted), (false, .recorded 0), (true, .recorded 0)]

/-- The first answer is overwritten, and its tokens are missing from the totals.
SOURCE: llm/store.py:75-83 -/
theorem first_turn_overwritten :
    ¬∀ (settings : LlmSettings ℚ) (args : Bool → TurnArgs) (ls : List (Bool × TurnInput ℚ)),
      Quiescent ((llmMachine settings args).final LlmWorld.start ls) →
        NoLostTurn args ((llmMachine settings args).trace LlmWorld.start ls)
          ((llmMachine settings args).final LlmWorld.start ls) := by
  intro h
  have hquiet : Quiescent ((llmMachine tabSettings tabArgs).final LlmWorld.start tabRun) := by
    intro i
    cases i <;> exact Or.inr (Or.inl (by decide +kernel))
  have htokens := (h tabSettings tabArgs tabRun hquiet).tokensIn "tab"
  revert htokens
  decide +kernel

end TradingEdge.Analysis
