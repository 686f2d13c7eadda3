import TradingEdge.Library.Pieces
import TradingEdge.Program.Prompt

/-!
# The fences of the contexts

A model that reads the block of contexts takes a context to end where a closing tag stands, in any
case and with any white space in it (`closingTag`).  The header of a fence spells none, since the id
is escaped and the type is one of five (`closings_opening_append`), and neither the note on a cut
nor the line behind it completes one that the body began.  So the closing tags of the block are
those of the fences and those that the bodies spell (`closings_renderContexts`): the bodies are not
escaped, and with one that spells a closing tag there is a tag too many.
-/

set_option autoImplicit false

namespace TradingEdge.Analysis

open TradingEdge.Library TradingEdge.Model TradingEdge.Program

/-! ## Closing tags -/

/-- What stands between the brackets of a closing tag. -/
def tagMiddle : List (Piece Char) :=
  [.many isSpace, .one (· = '/'), .many isSpace] ++
    "context".toList.map (fun letter => .one fun c => c.toLower = letter) ++ [.many isSpace]

/-- A closing tag, in any case and with any white space. -/
def closingTag : List (Piece Char) := .one (· = '<') :: (tagMiddle ++ [.one (· = '>')])

/-- The places at which a closing tag begins. -/
def closings (text : List Char) : List ℕ := Piece.occurrences closingTag text

/-- The text spells a closing tag. -/
def SpellsClosing (text : List Char) : Prop := closings text ≠ []

instance (text : List Char) : Decidable (SpellsClosing text) :=
  inferInstanceAs (Decidable (_ ≠ _))

/-- No closing tag goes on over a character that is not in one. -/
theorem closings_append_of_barrier (text : List Char) {rest : List Char}
    (h : ∀ c ∈ rest.head?, c = '<' ∨ c = '[') :
    closings (text ++ rest) = closings text ++ (closings rest).map fun i => i + text.length := by
  refine Piece.occurrences_append_of_barrier text ?_
  intro c hc
  rcases h c hc with rfl | rfl
  · decide
  · decide

/-- A text without an opening bracket only shifts the closing tags behind it. -/
theorem closings_append_of_no_bracket {text : List Char} (h : '<' ∉ text) (rest : List Char) :
    closings (text ++ rest) = (closings rest).map fun i => i + text.length := by
  refine Piece.occurrences_append_of_not_first ?_ rest
  intro c hc heq
  exact h (of_decide_eq_true heq ▸ hc)

/-- A text without an opening bracket has no closing tag. -/
theorem closings_eq_nil {text : List Char} (h : '<' ∉ text) : closings text = [] := by
  rw [← List.append_nil text, closings_append_of_no_bracket h]
  rfl

/-- A line end behind the text completes no tag. -/
theorem closings_append_newline (text : List Char) : closings (text ++ ['\n']) = closings text :=
  Piece.occurrences_concat text (by decide) (by decide)

/-! ## One fence -/

/-- An escaped attribute has no opening bracket. -/
theorem not_mem_escAttr (v : List Char) : '<' ∉ escAttr v := by
  intro h
  obtain ⟨c, -, hc⟩ := List.mem_flatMap.mp h
  split at hc
  · revert hc
    decide
  · split at hc
    · revert hc
      decide
    · split at hc
      · revert hc
        decide
      · next hne => exact hne (List.mem_singleton.mp hc).symm

/-- An opening tag is not a closing one. -/
theorem not_begins_opening (rest : List Char) :
    Piece.begins closingTag ('<' :: 'c' :: rest) = false := by
  rw [Bool.eq_false_iff, ne_eq, Piece.begins_iff]
  rintro ⟨u, hu, hmatch⟩
  rcases u with _ | ⟨a, _ | ⟨b, u⟩⟩
  · cases hmatch
  · simp [closingTag, tagMiddle, Piece.matchAll, Piece.manyThen] at hmatch
  · rw [List.cons_prefix_cons, List.cons_prefix_cons] at hu
    obtain ⟨rfl, rfl, -⟩ := hu
    have hspace : isSpace 'c' = false := by decide
    simp [closingTag, tagMiddle, Piece.matchAll, Piece.manyThen, hspace] at hmatch

/-- The header of a fence only shifts what stands behind it. -/
theorem closings_opening_append {c : LoadedContext} (htype : c.ref.type ∈ allowedTypes)
    (rest : List Char) :
    closings (c.opening ++ rest) = (closings rest).map fun i => i + c.opening.length := by
  have hclean : '<' ∉ "ontext type=\"".toList ++ c.ref.type.toList ++ "\" id=\"".toList ++
      escAttr c.ref.id.toList ++ "\">\n".toList := by
    have htypes : ∀ t ∈ allowedTypes, '<' ∉ t.toList := by decide
    simp only [List.mem_append, not_or]
    exact ⟨⟨⟨⟨by decide, htypes _ htype⟩, by decide⟩, not_mem_escAttr _⟩, by decide⟩
  have hopening : c.opening = '<' :: 'c' :: ("ontext type=\"".toList ++ c.ref.type.toList ++
      "\" id=\"".toList ++ escAttr c.ref.id.toList ++ "\">\n".toList) := rfl
  have hc : '<' ∉ 'c' :: ("ontext type=\"".toList ++ c.ref.type.toList ++ "\" id=\"".toList ++
      escAttr c.ref.id.toList ++ "\">\n".toList) := by
    rw [List.mem_cons, not_or]
    exact ⟨by decide, hclean⟩
  rw [hopening, List.cons_append, closings, Piece.occurrences, List.cons_append,
    not_begins_opening, if_neg (by decide), List.nil_append]
  change (closings ('c' :: _ ++ rest)).map _ = _
  rw [closings_append_of_no_bracket hc, List.map_map]
  rfl

/-- What stands behind the body in front of the closing tag. -/
theorem closings_body_append (c : LoadedContext) :
    closings (c.body ++ c.suffix ++ ['\n']) = closings c.body := by
  unfold LoadedContext.suffix
  split
  · rw [List.append_nil, closings_append_newline]
  · have hclean : '<' ∉ "[truncated ".toList ++ Nat.toDigits 10 c.truncatedBytes ++
        " bytes]".toList ++ ['\n'] := by
      simp only [List.mem_append, not_or]
      refine ⟨⟨⟨by decide, ?_⟩, by decide⟩, by decide⟩
      intro hdigit
      have hisDigit := Nat.isDigit_of_mem_toDigits (by decide) (by decide) hdigit
      revert hisDigit
      decide
    have hsplit : c.body ++ ("\n[truncated ".toList ++ Nat.toDigits 10 c.truncatedBytes ++
        " bytes]".toList) ++ ['\n'] = (c.body ++ ['\n']) ++ ("[truncated ".toList ++
          Nat.toDigits 10 c.truncatedBytes ++ " bytes]".toList ++ ['\n']) := by
      simp
    rw [hsplit, closings_append_of_barrier, closings_append_newline, closings_eq_nil hclean]
    · exact List.append_nil _
    · rintro a ha
      exact .inr (Option.some_inj.mp ha).symm

/-! ## The block -/

/-- What stands in front of the closing tag of a fence. -/
def frontOf (c : LoadedContext) : List Char := c.opening ++ c.body ++ c.suffix ++ ['\n']

/-- The fronts of the fences of a block; the marker of an empty block has a fence of its own. -/
def fronts (contexts : List LoadedContext) : List (List Char) :=
  if contexts = [] then ["<context>\n[no context refs supplied for this turn]\n".toList]
  else contexts.map frontOf

/-- Where the closing tags of the fences stand, each behind its front. -/
def closingPlaces : List (List Char) → List ℕ
  | [] => []
  | front :: rest =>
      front.length :: (closingPlaces rest).map fun i => i + (front.length + 12)

/-- Where closing tags stand when the fronts spell some. -/
def allPlaces : List (List Char) → List ℕ
  | [] => []
  | front :: rest =>
      closings front ++ front.length :: (allPlaces rest).map fun i => i + (front.length + 12)

/-- The block, as its items up to their closing tags. -/
theorem renderContexts_eq (contexts : List LoadedContext) :
    renderContexts contexts = "\n\n".toList.intercalate
      ((fronts contexts).map fun front => front ++ "</context>".toList) := by
  unfold renderContexts fronts
  split
  · decide
  · rw [List.map_map]
    refine congrArg _ ?_
    apply List.map_congr_left
    intro c _
    simp [LoadedContext.render, frontOf]

/-- The closing tags of the fences, and those that the fronts spell. -/
theorem closings_intercalate {fs : List (List Char)} (h : ∀ f ∈ fs, f.head? = some '<') :
    closings ("\n\n".toList.intercalate (fs.map fun front => front ++ "</context>".toList)) =
      allPlaces fs := by
  induction fs with
  | nil => rfl
  | cons f fs ih =>
    obtain ⟨-, hfs⟩ := List.forall_mem_cons.mp h
    cases fs with
    | nil =>
      have hclose : closings "</context>".toList = [0] := by decide +kernel
      rw [List.map_singleton, List.intercalate_singleton, closings_append_of_barrier f, hclose]
      · simp [allPlaces]
      · intro a ha
        exact .inl (Option.some_inj.mp ha).symm
    | cons g fs =>
      have hclose : closings "</context>\n\n".toList = [0] := by decide +kernel
      have htext : "\n\n".toList.intercalate
          ((f :: g :: fs).map fun front => front ++ "</context>".toList) =
            f ++ ("</context>\n\n".toList ++ "\n\n".toList.intercalate
              ((g :: fs).map fun front => front ++ "</context>".toList)) := by
        simp [List.intercalate]
      have hhead : ∀ a ∈ ("\n\n".toList.intercalate
          ((g :: fs).map fun front => front ++ "</context>".toList)).head?, a = '<' ∨ a = '[' := by
        intro a ha
        have hg := h g (by simp)
        cases g with
        | nil => cases hg
        | cons b g =>
          obtain rfl := Option.some_inj.mp hg
          have hrest : ("\n\n".toList.intercalate ((('<' :: g) :: fs).map
              fun front => front ++ "</context>".toList)).head? = some '<' := by
            cases fs with
            | nil => rfl
            | cons k fs => rfl
          rw [hrest] at ha
          exact .inl (Option.some_inj.mp ha).symm
      rw [htext, closings_append_of_barrier f, closings_append_of_barrier _ hhead, hclose, ih hfs]
      · have hshift : (((allPlaces (g :: fs)).map fun i => i + 12).map fun i => i + f.length) =
            (allPlaces (g :: fs)).map fun i => i + (f.length + 12) := by
          rw [List.map_map]
          apply List.map_congr_left
          intro i _
          change i + 12 + f.length = i + (f.length + 12)
          omega
        change closings f ++ ([0] ++ (allPlaces (g :: fs)).map fun i => i + 12).map
          (fun i => i + f.length) = closings f ++ f.length :: _
        rw [List.map_append, hshift, List.map_singleton, Nat.zero_add]
        rfl
      · intro a ha
        exact .inl (Option.some_inj.mp ha).symm

/-- The closing tags in an item, up to its own, are those of its body. -/
theorem closings_front {c : LoadedContext} (htype : c.ref.type ∈ allowedTypes) :
    closings (frontOf c) = (closings c.body).map fun i => i + c.opening.length := by
  rw [frontOf, List.append_assoc, List.append_assoc, closings_opening_append htype,
    ← List.append_assoc, closings_body_append]

/-- Every item starts with a bracket. -/
theorem head?_of_mem_fronts {contexts : List LoadedContext} {f : List Char}
    (hf : f ∈ fronts contexts) : f.head? = some '<' := by
  unfold fronts at hf
  split at hf
  · obtain rfl := List.mem_singleton.mp hf
    rfl
  · obtain ⟨c, -, rfl⟩ := List.mem_map.mp hf
    rfl

/-- With fronts that spell none, the closing tags are those of the fences. -/
theorem allPlaces_eq_closingPlaces_iff (fs : List (List Char)) :
    allPlaces fs = closingPlaces fs ↔ ∀ f ∈ fs, ¬SpellsClosing f := by
  have hlength : ∀ fs : List (List Char),
      (allPlaces fs).length = (closingPlaces fs).length + (fs.map fun f =>
        (closings f).length).sum := by
    intro fs
    induction fs with
    | nil => rfl
    | cons f fs ih =>
      rw [allPlaces, closingPlaces, List.length_append, List.length_cons, List.length_map, ih,
        List.length_cons, List.length_map, List.map_cons, List.sum_cons]
      omega
  constructor
  · intro heq f hf hspells
    have hsum := hlength fs
    rw [heq, Nat.left_eq_add, List.sum_eq_zero_iff] at hsum
    have hzero := hsum _ (List.mem_map_of_mem hf)
    exact hspells (List.length_eq_zero_iff.mp hzero)
  · intro hnone
    induction fs with
    | nil => rfl
    | cons f fs ih =>
      obtain ⟨hf, hfs⟩ := List.forall_mem_cons.mp hnone
      rw [allPlaces, closingPlaces, ih hfs, not_not.mp hf, List.nil_append]

/-- **The closing tags of a block** are where the fences end, if and only if no body spells one. -/
theorem closings_renderContexts {contexts : List LoadedContext}
    (htypes : ∀ c ∈ contexts, c.ref.type ∈ allowedTypes) :
    closings (renderContexts contexts) = closingPlaces (fronts contexts) ↔
      ∀ c ∈ contexts, ¬SpellsClosing c.body := by
  rw [renderContexts_eq, closings_intercalate fun f hf => head?_of_mem_fronts hf,
    allPlaces_eq_closingPlaces_iff]
  unfold fronts
  split
  · next hnil =>
    subst hnil
    have hmarker :
        ¬SpellsClosing "<context>\n[no context refs supplied for this turn]\n".toList := by
      decide +kernel
    constructor
    · intro _ c hc
      exact absurd hc List.not_mem_nil
    · intro _ f hf
      obtain rfl := List.mem_singleton.mp hf
      exact hmarker
  · have hspells : ∀ c ∈ contexts, SpellsClosing (frontOf c) ↔ SpellsClosing c.body := by
      intro c hc
      unfold SpellsClosing
      rw [closings_front (htypes c hc), ne_eq, ne_eq, List.map_eq_nil_iff]
    constructor
    · intro h c hc hbody
      exact h (frontOf c) (List.mem_map_of_mem hc) ((hspells c hc).mpr hbody)
    · intro h f hf hfront
      obtain ⟨c, hc, rfl⟩ := List.mem_map.mp hf
      exact h c hc ((hspells c hc).mp hfront)

/-! ## The loaders -/

/-- A reference that parses is of an allowed type. -/
theorem type_mem_of_parse {lower : List Char → List Char} {obj : Option String × Option String}
    {ref : ContextRef} (h : ContextRef.parse lower obj = .ok ref) : ref.type ∈ allowedTypes := by
  simp only [ContextRef.parse] at h
  split at h
  · cases h
  · next htype =>
    split at h
    · cases h
    · cases h
      exact not_not.mp htype

/-- So are all the references of a list that parses. -/
theorem type_mem_of_mapM_parse {lower : List Char → List Char}
    {objs : List (Option String × Option String)} {refs : List ContextRef}
    (h : objs.mapM (ContextRef.parse lower) = .ok refs) :
    ∀ ref ∈ refs, ref.type ∈ allowedTypes := by
  induction objs generalizing refs with
  | nil =>
    cases h
    intro ref href
    cases href
  | cons obj objs ih =>
    rw [List.mapM_cons] at h
    cases hparse : ContextRef.parse lower obj with
    | error e =>
      rw [hparse] at h
      cases h
    | ok first =>
      cases hrest : objs.mapM (ContextRef.parse lower) with
      | error e =>
        rw [hparse, hrest] at h
        cases h
      | ok rest =>
        rw [hparse, hrest] at h
        cases h
        exact List.forall_mem_cons.mpr ⟨type_mem_of_parse hparse, ih hrest⟩

/-- What is read for a reference, before it is stripped and cut. -/
def textOf (s : Surroundings) (ref : ContextRef) : Loading (Option (List Char)) :=
  if ref.type = "backtest" then backtestText s ref
  else if ref.type = "strategy" then strategyText s ref
  else if ref.type = "recent_trades" then recentTradesText s ref
  else if ref.type = "paper_stats" then paperStatsText s ref
  else if ref.type = "adr" then adrText s ref
  else .raise ("unknown context type ".toList ++ ref.type.toList)

/-- Every loader reads its text and cuts it to the budget of the type. -/
theorem loadOne_eq (s : Surroundings) (ref : ContextRef) :
    loadOne s ref = fitted ref ref.type <$> textOf s ref := by
  unfold loadOne textOf
  split
  · next h => rw [h]; rfl
  · split
    · next h => rw [h]; rfl
    · split
      · next h => rw [h]; rfl
      · split
        · next h => rw [h]; rfl
        · split
          · next h => rw [h]; rfl
          · rfl

/-- The budget cuts a body short. -/
theorem fst_budgetTrim (body : List Char) (budget : ℕ) :
    (budgetTrim body budget).1 = body.take budget := by
  unfold budgetTrim
  split
  · next h => exact (List.take_of_length_le h).symm
  · rfl

/-- What is read for the reference spells a closing tag: a text once it is stripped of control
characters and cut to its budget, the message of an exception as it is. -/
def ReadsClosing (s : Surroundings) (ref : ContextRef) : Prop :=
  match (textOf s ref).result with
  | .ok none => False
  | .ok (some text) => SpellsClosing ((sanitize text).take ((byteBudget.lookup ref.type).getD 0))
  | .error message => SpellsClosing message

/-- The message of a failed load spells a closing tag exactly when the exception's does. -/
theorem spellsClosing_failed (message : List Char) :
    SpellsClosing ("[load failed: ".toList ++ message ++ "]".toList) ↔ SpellsClosing message := by
  have hend : closings (message ++ "]".toList) = closings message :=
    Piece.occurrences_concat message (by decide) (by decide)
  unfold SpellsClosing
  rw [List.append_assoc, closings_append_of_no_bracket (by decide), hend, ne_eq, ne_eq,
    List.map_eq_nil_iff]

/-- What is loaded is the text that is read, fitted to the budget of its type. -/
theorem result_loadOne (s : Surroundings) (ref : ContextRef) :
    (loadOne s ref).result = (textOf s ref).result.map (fitted ref ref.type) := by
  rw [loadOne_eq]
  change (Loading.andThen _ _).result = _
  unfold Loading.andThen
  cases (textOf s ref).result with
  | ok text => rfl
  | error message => rfl

/-- The body of a context spells a closing tag when what was read does. -/
theorem spellsClosing_loadContext (s : Surroundings) (ref : ContextRef) :
    SpellsClosing (loadContext s ref).body ↔ ReadsClosing s ref := by
  unfold loadContext ReadsClosing
  rw [result_loadOne]
  cases (textOf s ref).result with
  | error message => exact spellsClosing_failed message
  | ok text =>
    cases text with
    | none =>
      change SpellsClosing "[not found]".toList ↔ False
      decide +kernel
    | some text =>
      change SpellsClosing (budgetTrim _ _).1 ↔ _
      rw [fst_budgetTrim]

/-- An item keeps its reference. -/
theorem ref_loadContext (s : Surroundings) (ref : ContextRef) : (loadContext s ref).ref = ref := by
  unfold loadContext
  rw [result_loadOne]
  cases (textOf s ref).result with
  | error message => rfl
  | ok text =>
    cases text with
    | none => rfl
    | some text => rfl

/-! ## Turns -/

/-- The block of contexts in the first message of a turn, behind the system prompt. -/
def contextBlock (systemPrompt : List Char) : List PromptMessage → List Char
  | [] => []
  | first :: _ => first.content.drop (systemPrompt.length + 2)

/-- In the messages of a turn the closing tags of the block are those of its fences, each behind
its own context. -/
def FencedOnce (systemPrompt userMessage : List Char) (history : List PromptMessage)
    (contexts : List LoadedContext) : Prop :=
  closings (contextBlock systemPrompt
    (buildMessages systemPrompt userMessage history contexts)) = closingPlaces (fronts contexts)

/-- The block of the messages is the rendered items. -/
theorem contextBlock_buildMessages (systemPrompt userMessage : List Char)
    (history : List PromptMessage) (contexts : List LoadedContext) :
    contextBlock systemPrompt (buildMessages systemPrompt userMessage history contexts) =
      renderContexts contexts := by
  change (systemPrompt ++ "\n\n".toList ++ renderContexts contexts).drop _ = _
  rw [List.drop_append_of_le_length (by simp), List.drop_eq_nil_of_le (by simp), List.nil_append]

/-- **Fences.**  The contexts of a turn are fenced, if and only if nothing that is read for them
spells a closing tag. -/
theorem fencedOnce_iff (lower : List Char → List Char)
    (objs : List (Option String × Option String)) (refs : List ContextRef)
    (hrefs : objs.mapM (ContextRef.parse lower) = .ok refs) (s : Surroundings)
    (systemPrompt userMessage : List Char) (history : List PromptMessage) :
    FencedOnce systemPrompt userMessage history (loadContexts s refs) ↔
      ∀ ref ∈ refs, ¬ReadsClosing s ref := by
  have htypes : ∀ c ∈ loadContexts s refs, c.ref.type ∈ allowedTypes := by
    intro c hc
    obtain ⟨ref, href, rfl⟩ := List.mem_map.mp hc
    rw [ref_loadContext]
    exact type_mem_of_mapM_parse hrefs ref href
  unfold FencedOnce
  rw [contextBlock_buildMessages, closings_renderContexts htypes]
  constructor
  · intro h ref href hreads
    exact h _ (List.mem_map_of_mem href) ((spellsClosing_loadContext s ref).mpr hreads)
  · intro h c hc
    obtain ⟨ref, href, rfl⟩ := List.mem_map.mp hc
    exact fun hspells => h ref href ((spellsClosing_loadContext s ref).mp hspells)

/-! ## A decision record -/

def decisionsDir : Location := ["app".toList, "Docs".toList, "decisions".toList]

def adrLocation : Location := decisionsDir ++ ["0010-llm-copilot-openrouter.md".toList]

/-- A disk with one decision record. -/
def adrDisk (text : List Char) : Disk where
  dirs := decisionsDir.inits
  files := [(adrLocation, .ok text)]
  proper := by
    change ∀ loc ∈ decisionsDir.inits ++ [adrLocation], ['.', '.'] ∉ loc
    decide
  apart := by
    rw [List.forall_mem_singleton]
    change adrLocation ∉ decisionsDir.inits
    decide

def adrSurroundings (text : List Char) : Surroundings where
  includeSource := false
  cwd := ["app".toList]
  cwd_proper := proper_app
  disk := adrDisk text
  osError := fun _ => "[Errno 2] No such file or directory".toList
  uuid := fun _ => none
  backtest := fun _ => .ok none
  backtestTrades := fun _ => .ok []
  recentTrades := fun _ _ => .ok []
  paperStats := fun _ _ => .ok ⟨0, "0.0".toList, "0.0".toList, "0.0".toList⟩

def adr0010 : ContextRef := ⟨"adr", "0010"⟩

/-- The pattern of the record selects its file. -/
theorem glob_adrDisk (text : List Char) :
    (adrDisk text).glob ["app".toList] (.ofText "Docs/decisions".toList) (adrPattern adr0010) =
      .ok [⟨[], ["Docs".toList, "decisions".toList, "0010-llm-copilot-openrouter.md".toList]⟩] := by
  rfl

/-- The text of the record is that of its file. -/
theorem result_adr0010 (text : List Char) :
    (textOf (adrSurroundings text) adr0010).result = .ok (some text) := by
  have hsorted : ∀ p : PurePath, sortedPaths [p] = [p] := fun p => List.mergeSort_singleton p
  change (adrText (adrSurroundings text) adr0010).result = _
  unfold adrText
  rw [show (adrSurroundings text).disk.glob (adrSurroundings text).cwd _ _ = _ from
    glob_adrDisk text]
  simp only [Loading.ofExcept, bind, Loading.andThen, hsorted]
  rfl

/-- The lines of the decision record that show a fence. -/
def fenceLines : List Char :=
  "All loaded text is wrapped in XML-ish fences:\n\n```\n".toList ++
    "<context type=\"backtest\" id=\"0e1f...\">...\n</context>\n```\n".toList

/-- **A record that shows a fence.**  The decision record on the copilot quotes a closing tag, and
a turn that refers to it has one too many. -/
theorem not_fencedOnce_adr0010 :
    [(some "adr", some "0010")].mapM (ContextRef.parse id) = .ok [adr0010] ∧
      ¬FencedOnce "You are TEA Research Copilot.".toList "hola".toList []
        (loadContexts (adrSurroundings fenceLines) [adr0010]) := by
  refine ⟨rfl, ?_⟩
  have htypes : ∀ c ∈ loadContexts (adrSurroundings fenceLines) [adr0010],
      c.ref.type ∈ allowedTypes := by
    intro c hc
    obtain rfl := List.mem_singleton.mp hc
    rw [ref_loadContext]
    decide
  have hreads : ReadsClosing (adrSurroundings fenceLines) adr0010 := by
    unfold ReadsClosing
    rw [result_adr0010]
    decide +kernel
  unfold FencedOnce
  rw [contextBlock_buildMessages, closings_renderContexts htypes]
  intro h
  exact h _ (List.mem_singleton_self _) ((spellsClosing_loadContext _ _).mpr hreads)

/-- A record that speaks of fences without spelling one. -/
theorem fencedOnce_adr0010 :
    FencedOnce "You are TEA Research Copilot.".toList "hola".toList []
        (loadContexts (adrSurroundings "No tools. < No writes >.".toList) [adr0010]) := by
  refine (fencedOnce_iff (List.map Char.toLower) [(some "ADR ", some "0010")] [adr0010]
    ?_ _ _ _ _).mpr ?_
  · decide +kernel
  · intro ref href
    obtain rfl := List.mem_singleton.mp href
    unfold ReadsClosing
    rw [result_adr0010]
    decide +kernel

end TradingEdge.Analysis
