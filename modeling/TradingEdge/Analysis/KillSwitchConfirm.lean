import TradingEdge.Program.TelegramCommands

/-!
# Who arms the kill switch over Telegram

The poller keeps one prompt per user.  What it holds for a user is determined by the user's own
texts (`pending_iff`): a prompt is open exactly when the last of them is a `/killswitch` that was
not itself read as an answer.  `kill_switch_confirmed` collects what follows for the calls.
-/

set_option autoImplicit false

namespace TradingEdge.Analysis

open TradingEdge.Model TradingEdge.Program TradingEdge.Library

variable (cfg : PollerConfig)

/-! ## A user's own texts -/

/-- A text of a user with the two readings of the clock. -/
structure OwnText where
  text : List Char
  checkedAt : ℤ
  promptedAt : ℤ

/-- The text of an update, if it is a non-empty one of the authorized user. -/
def ownText (user : ℤ) (u : TelegramUpdate) : Option OwnText :=
  if u.userId = some user ∧ user ∈ cfg.authorized ∧ u.chatId ≠ none ∧
      strip (u.text.getD "").toList ≠ [] then
    some ⟨strip (u.text.getD "").toList, u.checkedAt, u.promptedAt⟩
  else none

/-- The user's texts, the newest first. -/
def ownTexts (user : ℤ) (ls : List TelegramUpdate) : List OwnText :=
  (ls.filterMap (ownText cfg user)).reverse

/-- The text is a `/killswitch` command. -/
def AsksKillswitch (m : OwnText) : Prop := commandOf cfg m.text = some .killswitch

/-- The text is the confirmation phrase, up to letter case. -/
def Confirms (m : OwnText) : Prop := cfg.lower (String.ofList m.text) = killswitchConfirm

/-- The text comes right after a `/killswitch` of the user that was dispatched, and less than 120
seconds after it. -/
def AnswersPrompt : List OwnText → OwnText → Prop
  | [], _ => False
  | k :: earlier, m =>
    AsksKillswitch cfg k ∧ ¬AnswersPrompt earlier k ∧
      m.checkedAt - k.promptedAt < killswitchFsmTtl

/-- The event is a call of the kill switch. -/
def IsKillSwitchCall (e : BotEvent) : Prop := ∃ body, e = .post "/api/v1/killswitch" body

/-! ## The handlers -/

/-- Texts that differ in their first letters differ. -/
theorem append_ne_of_take_ne (n : ℕ) {p q : String} (s : String) (hlen : n ≤ p.toList.length)
    (h : p.toList.take n ≠ q.toList.take n) : p ++ s ≠ q := by
  intro heq
  apply h
  rw [← heq, String.toList_append, List.take_append_of_le_length hlen]

/-- A path of the strategies is not the kill switch's. -/
theorem strategyPath_ne (name action : String) :
    strategyPath name action ≠ "/api/v1/killswitch" :=
  append_ne_of_take_ne 9 _ (by decide) (by decide)

/-- The path of a reset is not that of the kill switch. -/
theorem resetPath_ne (session : String) :
    "/api/v1/llm/reset?session_id=" ++ session ≠ "/api/v1/killswitch" :=
  append_ne_of_take_ne 9 _ (by decide) (by decide)

/-- No event is a call of the kill switch. -/
def NoCall (es : List BotEvent) : Prop := ∀ e ∈ es, ¬IsKillSwitchCall e

/-- No events have no call. -/
theorem noCall_nil : NoCall [] := by
  intro e he
  cases he

/-- A reply is no call. -/
theorem noCall_reply (chatId : ℤ) (text : String) {es : List BotEvent} (h : NoCall es) :
    NoCall (.reply chatId text :: es) := by
  refine List.forall_mem_cons.mpr ⟨?_, h⟩
  rintro ⟨body, hreply⟩
  cases hreply

/-- A post to another path is no call. -/
theorem noCall_post {path : String} (hpath : path ≠ "/api/v1/killswitch") (body : PostBody) :
    NoCall [.post path body] := by
  refine List.forall_mem_cons.mpr ⟨?_, noCall_nil⟩
  rintro ⟨body', hpost⟩
  exact hpath (BotEvent.post.inj hpost).1

/-- No command calls the kill switch.
SOURCE: bots/telegram/commands.py:151-177 -/
theorem dispatch_noCall (pending : Dict ℤ ℤ) (u : TelegramUpdate) (user chatId : ℤ)
    (text : List Char) : NoCall (dispatch cfg pending u user chatId text).2 := by
  unfold dispatch
  split
  · dsimp only
    split
    · exact noCall_reply _ _ noCall_nil
    · exact noCall_nil
  · exact noCall_reply _ _ noCall_nil
  · simp only [cmdPauseOrResume]
    split
    · exact noCall_reply _ _ noCall_nil
    · exact noCall_post (strategyPath_ne _ _) _
  · simp only [cmdPauseOrResume]
    split
    · exact noCall_reply _ _ noCall_nil
    · exact noCall_post (strategyPath_ne _ _) _
  · simp only [cmdRestart]
    split
    · exact noCall_reply _ _ noCall_nil
    · exact noCall_post (by decide) _
  · simp only [cmdPnl]
    split
    · exact noCall_nil
    · split
      · exact noCall_nil
      · exact noCall_reply _ _ noCall_nil
  · simp only [cmdBacktest]
    split
    · exact noCall_post (by decide) _
    · exact noCall_reply _ _ noCall_nil
  · simp only [cmdAsk]
    split
    · exact noCall_reply _ _ noCall_nil
    · split
      · exact noCall_reply _ _ (noCall_post (by decide) _)
      · exact noCall_nil
  · simp only [cmdAskReset]
    split
    · split
      · exact noCall_post (resetPath_ne _) _
      · exact noCall_reply _ _ noCall_nil
    · exact noCall_nil
  · exact noCall_nil
  · exact noCall_nil
  · exact noCall_nil
  · exact noCall_reply _ _ noCall_nil

/-- A command leaves the prompts as they are, but for a `/killswitch`, which opens one. -/
theorem dispatch_pending (pending : Dict ℤ ℤ) (u : TelegramUpdate) (user chatId : ℤ)
    (text : List Char) : (dispatch cfg pending u user chatId text).1 =
      if commandOf cfg text = some .killswitch then pending.set user u.promptedAt
      else pending := by
  unfold dispatch
  split <;> rename_i h <;> simp [h, cmdKillswitch]

/-- An answer calls the kill switch, and does nothing else, exactly when it is the phrase.
SOURCE: bots/telegram/commands.py:368-381 -/
theorem cmdKillswitchConfirm_calls (chatId : ℤ) (text : List Char) :
    (∃ e ∈ cmdKillswitchConfirm cfg chatId text, IsKillSwitchCall e) ↔
      cfg.lower (String.ofList (strip text)) = killswitchConfirm := by
  unfold cmdKillswitchConfirm
  split
  · rename_i h
    constructor
    · rintro ⟨e, he, hcall⟩
      exact absurd hcall (noCall_reply _ _ noCall_nil e he)
    · intro heq
      exact absurd heq h
  · rename_i h
    exact ⟨fun _ => not_not.mp h, fun _ => ⟨_, List.mem_singleton_self _, _, rfl⟩⟩

/-! ## One update -/

/-- The text would be read as an answer to the user's prompt. -/
def AnswersPending (pending : Dict ℤ ℤ) (user : ℤ) (m : OwnText) : Prop :=
  ∃ promptedAt, pending.get? user = some promptedAt ∧
    m.checkedAt - promptedAt < killswitchFsmTtl

/-- When an update is a text of the user, and which one. -/
theorem ownText_eq_some_iff (user : ℤ) (u : TelegramUpdate) (m : OwnText) :
    ownText cfg user u = some m ↔
      (u.userId = some user ∧ user ∈ cfg.authorized ∧ u.chatId ≠ none ∧
        strip (u.text.getD "").toList ≠ []) ∧
      m = ⟨strip (u.text.getD "").toList, u.checkedAt, u.promptedAt⟩ := by
  unfold ownText
  split
  · rename_i h
    simp [h, eq_comm]
  · rename_i h
    simp [h]

/-- The text is stripped. -/
theorem strip_ownText {user : ℤ} {u : TelegramUpdate} {m : OwnText}
    (h : ownText cfg user u = some m) : strip m.text = m.text := by
  rw [((ownText_eq_some_iff cfg user u m).mp h).2, strip_strip]

/-- An update is a text of one user at most. -/
theorem ownText_unique {user other : ℤ} {u : TelegramUpdate} {m m' : OwnText}
    (h : ownText cfg user u = some m) (h' : ownText cfg other u = some m') : other = user := by
  obtain ⟨⟨huser, -⟩, -⟩ := (ownText_eq_some_iff cfg user u m).mp h
  obtain ⟨⟨hother, -⟩, -⟩ := (ownText_eq_some_iff cfg other u m').mp h'
  rw [huser] at hother
  exact (Option.some.inj hother).symm

/-- An own text is read as an answer or dispatched, and either way the old prompt is gone.
SOURCE: bots/telegram/commands.py:127-177 -/
theorem handleUpdate_of_ownText (pending : Dict ℤ ℤ) {u : TelegramUpdate} {user : ℤ}
    {m : OwnText} (h : ownText cfg user u = some m) :
    ∃ chatId,
      (AnswersPending pending user m → handleUpdate cfg pending u =
        (pending.pop user, cmdKillswitchConfirm cfg chatId m.text)) ∧
      (¬AnswersPending pending user m → handleUpdate cfg pending u =
        dispatch cfg (pending.pop user) u user chatId m.text) := by
  obtain ⟨⟨huser, hauth, hchat, htext⟩, rfl⟩ := (ownText_eq_some_iff cfg user u m).mp h
  obtain ⟨chatId, hchat⟩ := Option.ne_none_iff_exists'.mp hchat
  refine ⟨chatId, ?_, ?_⟩
  · rintro ⟨promptedAt, hget, hlt⟩
    simp only at hlt
    simp [handleUpdate, huser, hchat, htext, hauth, hget, hlt]
  · intro hans
    cases hget : pending.get? user with
    | none =>
      rw [Dict.pop_of_get?_none pending user hget]
      simp [handleUpdate, huser, hchat, htext, hauth, hget]
    | some promptedAt =>
      have hlate : ¬u.checkedAt - promptedAt < killswitchFsmTtl :=
        fun hlt => hans ⟨promptedAt, hget, hlt⟩
      simp [handleUpdate, huser, hchat, htext, hauth, hget, hlate]

/-- An update that is nobody's own text changes no prompt and calls nothing. -/
theorem handleUpdate_of_no_ownText (pending : Dict ℤ ℤ) {u : TelegramUpdate}
    (h : ∀ user, ownText cfg user u = none) :
    (handleUpdate cfg pending u).1 = pending ∧ NoCall (handleUpdate cfg pending u).2 := by
  unfold handleUpdate
  dsimp only
  split
  · rename_i user chatId huser hchat
    split
    · exact ⟨rfl, noCall_nil⟩
    · rename_i htext
      split
      · exact ⟨rfl, noCall_reply _ _ noCall_nil⟩
      · rename_i hauth
        have hown := h user
        rw [ownText, if_pos ⟨huser, not_not.mp hauth, by simp [hchat], htext⟩] at hown
        cases hown
  · exact ⟨rfl, noCall_nil⟩

/-- An update that is no own text of a user leaves the user's prompt alone. -/
theorem handleUpdate_get?_other (pending : Dict ℤ ℤ) {u : TelegramUpdate} {user : ℤ}
    (h : ownText cfg user u = none) :
    (handleUpdate cfg pending u).1.get? user = pending.get? user := by
  by_cases hnone : ∀ other, ownText cfg other u = none
  · rw [(handleUpdate_of_no_ownText cfg pending hnone).1]
  · push Not at hnone
    obtain ⟨other, hother⟩ := hnone
    obtain ⟨m, hm⟩ := Option.ne_none_iff_exists'.mp hother
    have hne : user ≠ other := by
      rintro rfl
      exact hother h
    obtain ⟨chatId, hanswer, hdispatch⟩ := handleUpdate_of_ownText cfg pending hm
    by_cases hans : AnswersPending pending other m
    · rw [hanswer hans, Dict.get?_pop, if_neg hne]
    · rw [hdispatch hans, dispatch_pending]
      split
      · rw [Dict.get?_set, if_neg hne, Dict.get?_pop, if_neg hne]
      · rw [Dict.get?_pop, if_neg hne]

/-- After an own text the user's prompt is the one it asks for, if it was dispatched. -/
theorem handleUpdate_get?_own (pending : Dict ℤ ℤ) {u : TelegramUpdate} {user : ℤ}
    {m : OwnText} (h : ownText cfg user u = some m) (promptedAt : ℤ) :
    (handleUpdate cfg pending u).1.get? user = some promptedAt ↔
      AsksKillswitch cfg m ∧ ¬AnswersPending pending user m ∧ promptedAt = m.promptedAt := by
  obtain ⟨chatId, hanswer, hdispatch⟩ := handleUpdate_of_ownText cfg pending h
  by_cases hans : AnswersPending pending user m
  · rw [hanswer hans, Dict.get?_pop_self]
    simp [hans]
  · have hprompted : u.promptedAt = m.promptedAt := by
      rw [((ownText_eq_some_iff cfg user u m).mp h).2]
    rw [hdispatch hans, dispatch_pending, AsksKillswitch]
    split
    · rename_i hask
      simp [hans, hask, hprompted, eq_comm]
    · rename_i hask
      simp [hask]

/-- The kill switch is called exactly for an own text that is the phrase and an answer. -/
theorem handleUpdate_calls_iff (pending : Dict ℤ ℤ) (u : TelegramUpdate) :
    (∃ e ∈ (handleUpdate cfg pending u).2, IsKillSwitchCall e) ↔
      ∃ user m, ownText cfg user u = some m ∧ Confirms cfg m ∧
        AnswersPending pending user m := by
  constructor
  · rintro ⟨e, he, hcall⟩
    by_cases hnone : ∀ user, ownText cfg user u = none
    · exact absurd hcall ((handleUpdate_of_no_ownText cfg pending hnone).2 e he)
    · push Not at hnone
      obtain ⟨user, huser⟩ := hnone
      obtain ⟨m, hm⟩ := Option.ne_none_iff_exists'.mp huser
      obtain ⟨chatId, hanswer, hdispatch⟩ := handleUpdate_of_ownText cfg pending hm
      by_cases hans : AnswersPending pending user m
      · rw [hanswer hans] at he
        have hphrase := (cmdKillswitchConfirm_calls cfg chatId m.text).mp ⟨e, he, hcall⟩
        rw [strip_ownText cfg hm] at hphrase
        exact ⟨user, m, hm, hphrase, hans⟩
      · rw [hdispatch hans] at he
        exact absurd hcall (dispatch_noCall cfg _ _ _ _ _ e he)
  · rintro ⟨user, m, hm, hphrase, hans⟩
    obtain ⟨chatId, hanswer, -⟩ := handleUpdate_of_ownText cfg pending hm
    rw [hanswer hans]
    apply (cmdKillswitchConfirm_calls cfg chatId m.text).mpr
    rw [strip_ownText cfg hm]
    exact hphrase

/-- The call carries the phrase and is all that the update leads to. -/
theorem handleUpdate_call_eq (pending : Dict ℤ ℤ) (u : TelegramUpdate)
    (h : ∃ e ∈ (handleUpdate cfg pending u).2, IsKillSwitchCall e) :
    (handleUpdate cfg pending u).2 =
      [.post "/api/v1/killswitch" (.confirm killswitchConfirm)] := by
  obtain ⟨user, m, hm, hphrase, hans⟩ := (handleUpdate_calls_iff cfg pending u).mp h
  obtain ⟨chatId, hanswer, -⟩ := handleUpdate_of_ownText cfg pending hm
  have heq : cfg.lower (String.ofList m.text) = killswitchConfirm := hphrase
  rw [hanswer hans, cmdKillswitchConfirm, strip_ownText cfg hm, if_neg (not_not.mpr heq)]

/-! ## Runs -/

/-- The texts after one more update. -/
theorem ownTexts_concat (user : ℤ) (ls : List TelegramUpdate) (u : TelegramUpdate) :
    ownTexts cfg user (ls ++ [u]) =
      (ownText cfg user u).toList ++ ownTexts cfg user ls := by
  rw [ownTexts, ownTexts, List.filterMap_append, List.reverse_append]
  cases h : ownText cfg user u <;> simp [h]

/-- The user's prompt is open. -/
def PromptOpen (earlier : List OwnText) (promptedAt : ℤ) : Prop :=
  ∃ k rest, earlier = k :: rest ∧ AsksKillswitch cfg k ∧ ¬AnswersPrompt cfg rest k ∧
    promptedAt = k.promptedAt

/-- A text answers a prompt if one is open and less than two minutes old. -/
theorem answersPrompt_iff (earlier : List OwnText) (m : OwnText) :
    AnswersPrompt cfg earlier m ↔ ∃ promptedAt, PromptOpen cfg earlier promptedAt ∧
      m.checkedAt - promptedAt < killswitchFsmTtl := by
  cases earlier with
  | nil => simp [AnswersPrompt, PromptOpen]
  | cons k rest => simp [AnswersPrompt, PromptOpen, and_assoc]

/-- **What the poller remembers.** After any updates it holds a prompt for a user exactly when the
user's last text is a `/killswitch` that was dispatched. -/
theorem pending_iff (user : ℤ) (ls : List TelegramUpdate) (promptedAt : ℤ) :
    ((pollerMachine cfg).final Dict.empty ls).get? user = some promptedAt ↔
      PromptOpen cfg (ownTexts cfg user ls) promptedAt := by
  induction ls using List.reverseRecOn generalizing promptedAt with
  | nil => simp [PromptOpen, ownTexts]
  | append_singleton ls u ih =>
    rw [Machine.final_concat, ownTexts_concat]
    change (handleUpdate cfg _ u).1.get? user = some promptedAt ↔ _
    cases hown : ownText cfg user u with
    | none =>
      rw [handleUpdate_get?_other cfg _ hown]
      exact ih promptedAt
    | some m =>
      have hans : AnswersPending ((pollerMachine cfg).final Dict.empty ls) user m ↔
          AnswersPrompt cfg (ownTexts cfg user ls) m := by
        rw [answersPrompt_iff]
        exact exists_congr fun t => and_congr_left' (ih t)
      rw [handleUpdate_get?_own cfg _ hown, hans]
      simp [PromptOpen]

/-- A text is read as an answer exactly when it comes in time behind a dispatched
`/killswitch`. -/
theorem answersPending_iff (user : ℤ) (ls : List TelegramUpdate) (m : OwnText) :
    AnswersPending ((pollerMachine cfg).final Dict.empty ls) user m ↔
      AnswersPrompt cfg (ownTexts cfg user ls) m := by
  rw [answersPrompt_iff]
  exact exists_congr fun t => and_congr_left' (pending_iff cfg user ls t)

/-- The protocol of the confirmation, at the step that handles `u` after the updates `pre`. -/
structure ConfirmationStep (pre : List TelegramUpdate) (u : TelegramUpdate) : Prop where
  /-- The call is made exactly for the phrase of an authorized user, as the next text after the
  user's own dispatched `/killswitch` and less than 120 seconds after it. -/
  called : (∃ e ∈ (pollerMachine cfg).emits ((pollerMachine cfg).final Dict.empty pre) u,
      IsKillSwitchCall e) ↔
    ∃ user m, ownText cfg user u = some m ∧ Confirms cfg m ∧
      AnswersPrompt cfg (ownTexts cfg user pre) m
  /-- The call carries the phrase and is all that the step sends. -/
  single : (∃ e ∈ (pollerMachine cfg).emits ((pollerMachine cfg).final Dict.empty pre) u,
      IsKillSwitchCall e) →
    (pollerMachine cfg).emits ((pollerMachine cfg).final Dict.empty pre) u =
      [.post "/api/v1/killswitch" (.confirm killswitchConfirm)]
  /-- A message of another user leaves a pending request as it is. -/
  othersIgnored : ∀ user, u.userId ≠ some user →
    ((pollerMachine cfg).final Dict.empty (pre ++ [u])).get? user =
      ((pollerMachine cfg).final Dict.empty pre).get? user
  /-- Any reply clears the request, late or not and whatever it says; a late `/killswitch` makes
  one of its own. -/
  cleared : ∀ user m promptedAt, ownText cfg user u = some m →
    ((pollerMachine cfg).final Dict.empty pre).get? user = some promptedAt →
    ((pollerMachine cfg).final Dict.empty (pre ++ [u])).get? user =
      if ¬m.checkedAt - promptedAt < killswitchFsmTtl ∧
        commandOf cfg m.text = some .killswitch then some m.promptedAt else none
  /-- An unauthorized user calls nothing and leaves every request as it is. -/
  unauthorized : ∀ user, u.userId = some user → user ∉ cfg.authorized →
    NoCall ((pollerMachine cfg).emits ((pollerMachine cfg).final Dict.empty pre) u) ∧
      (pollerMachine cfg).final Dict.empty (pre ++ [u]) =
        (pollerMachine cfg).final Dict.empty pre

/-- **Confirming the kill switch.** For any users' messages in any order and at any times, every
step of the poller follows the protocol of the confirmation.
SOURCE: bots/telegram/commands.py:127-177, 358-381 -/
theorem kill_switch_confirmed (pre : List TelegramUpdate) (u : TelegramUpdate) :
    ConfirmationStep cfg pre u := by
  have hnext : (pollerMachine cfg).final Dict.empty (pre ++ [u]) =
      (handleUpdate cfg ((pollerMachine cfg).final Dict.empty pre) u).1 :=
    Machine.final_concat _ _ _ _
  refine ⟨?_, handleUpdate_call_eq cfg _ u, ?_, ?_, ?_⟩
  · refine (handleUpdate_calls_iff cfg _ u).trans ?_
    simp only [answersPending_iff]
  · intro user huser
    rw [hnext]
    apply handleUpdate_get?_other
    rw [ownText, if_neg (fun h => huser h.1)]
  · intro user m promptedAt hown hget
    have hiff : AnswersPending ((pollerMachine cfg).final Dict.empty pre) user m ↔
        m.checkedAt - promptedAt < killswitchFsmTtl := by
      simp [AnswersPending, hget]
    rw [hnext]
    apply Option.ext
    intro t
    rw [handleUpdate_get?_own cfg _ hown, hiff, AsksKillswitch]
    split
    · rename_i hask
      simp [hask, eq_comm]
    · rename_i hask
      constructor
      · rintro ⟨hasks, hlate, -⟩
        exact absurd ⟨hlate, hasks⟩ hask
      · intro h
        cases h
  · intro user huser hauth
    have hnone : ∀ other, ownText cfg other u = none := by
      intro other
      apply if_neg
      rintro ⟨hother, hmem, -⟩
      rw [huser] at hother
      obtain rfl := Option.some.inj hother
      exact hauth hmem
    obtain ⟨hsame, hcalls⟩ := handleUpdate_of_no_ownText cfg
      ((pollerMachine cfg).final Dict.empty pre) hnone
    exact ⟨hcalls, hnext.trans hsame⟩

end TradingEdge.Analysis
