import TradingEdge.Library.Cuts
import TradingEdge.Program.MessageSplit

/-!
# The chunks of a long message

Every turn of the loop leaves less of the text (`length_afterCut_lt`), since it cuts a character
off, or cuts at the front and strips the newline that stands there.  The chunks fit and lose
white space only.  A chunk is empty when the text in front of its cut is white space, which is a
matter of what the remaining text begins with (`rstrip_take_eq_nil_iff`).
-/

set_option autoImplicit false

namespace TradingEdge.Analysis

open TradingEdge.Library TradingEdge.Model TradingEdge.Program

/-! ## One turn -/

section Turn

variable {limit : ℕ} {remaining : List Char}

/-- A cut is within the limit. -/
theorem cutAt_le : cutAt limit remaining ≤ limit := by
  unfold cutAt
  split
  · next cut hcut =>
    have hget := getElem?_of_rfind hcut
    have hlt := (List.getElem?_eq_some_iff.mp hget).1
    simp only [List.length_take] at hlt
    split
    · exact le_rfl
    · omega
  · exact le_rfl

/-- A cut at the front is one at a newline. -/
theorem head?_of_cutAt_eq_zero (hlimit : 1 ≤ limit) (h : cutAt limit remaining = 0) :
    remaining.head? = some '\n' := by
  unfold cutAt at h
  split at h
  · next cut hcut =>
    have hget := getElem?_of_rfind hcut
    split at h
    · omega
    · subst h
      rw [List.getElem?_take_of_lt (by omega)] at hget
      rw [List.head?_eq_getElem?, hget]
  · omega

/-- **Progress.**  A turn leaves less than there was. -/
theorem length_afterCut_lt (hlimit : 1 ≤ limit) (hlong : limit < remaining.length) :
    (afterCut limit remaining).length < remaining.length := by
  have hdrop := (List.dropWhile_sublist (l := remaining.drop (cutAt limit remaining))
    fun c => c = '\n').length_le
  simp only [List.length_drop] at hdrop
  by_cases hzero : cutAt limit remaining = 0
  · have hhead := head?_of_cutAt_eq_zero hlimit hzero
    unfold afterCut
    rw [hzero, List.drop_zero]
    cases remaining with
    | nil => simp at hlong
    | cons c rest =>
      simp only [List.head?_cons, Option.some.injEq] at hhead
      have hrest := (List.dropWhile_sublist (l := rest) fun c => c = '\n').length_le
      simp [hhead]
      omega
  · unfold afterCut
    omega

/-- The first characters are white space as far as the white space at the front reaches. -/
theorem forall_mem_take_iff {p : Char → Bool} {n : ℕ} {cs : List Char} (hn : n ≤ cs.length) :
    (∀ c ∈ cs.take n, p c) ↔ n ≤ (cs.takeWhile p).length := by
  induction cs generalizing n with
  | nil => simp_all
  | cons a cs ih =>
    cases n with
    | zero => simp
    | succ n =>
      simp only [List.length_cons, Nat.add_le_add_iff_right] at hn
      rw [List.take_succ_cons, List.forall_mem_cons, ih hn]
      by_cases ha : p a
      · simp [ha]
      · simp [ha]

/-- The remaining text begins with so much white space that there is none but it in front of the
cut: `limit` characters of it, or the last newline that fits, in the second half of what fits. -/
def OpensBlank (limit : ℕ) (remaining : List Char) : Prop :=
  limit ≤ (remaining.takeWhile isSpace).length ∨
    ∃ cut ∈ rfind '\n' (remaining.take limit),
      limit / 2 ≤ cut ∧ cut < (remaining.takeWhile isSpace).length

/-- **Empty chunks.**  The chunk of a turn is empty exactly when the text opens blank. -/
theorem rstrip_take_eq_nil_iff (hlong : limit < remaining.length) :
    rstrip (remaining.take (cutAt limit remaining)) = [] ↔ OpensBlank limit remaining := by
  have hcut : cutAt limit remaining ≤ remaining.length := cutAt_le.trans hlong.le
  rw [rstrip, List.rdropWhile_eq_nil_iff, forall_mem_take_iff hcut]
  unfold cutAt OpensBlank
  cases hfound : rfind '\n' (remaining.take limit) with
  | none => simp
  | some cut =>
    have hget := getElem?_of_rfind hfound
    have hlt := (List.getElem?_eq_some_iff.mp hget).1
    simp only [List.length_take] at hlt
    rw [List.getElem?_take_of_lt (by omega)] at hget
    -- the newline is white space itself
    have hspace : cut ≤ (remaining.takeWhile isSpace).length →
        cut < (remaining.takeWhile isSpace).length := by
      intro hle
      have hall : ∀ c ∈ remaining.take (cut + 1), isSpace c := by
        rw [List.take_add_one, hget]
        have hfront := (forall_mem_take_iff (p := isSpace) (by omega)).mpr hle
        intro c hc
        simp only [Option.toList_some, List.mem_append, List.mem_singleton] at hc
        rcases hc with hc | rfl
        · exact hfront c hc
        · decide
      have := (forall_mem_take_iff (by omega)).mp hall
      omega
    simp only [Option.mem_def, Option.some.injEq, exists_eq_left']
    split
    · omega
    · omega

end Turn

/-! ## The loop -/

/-- What can remain of a text: the text itself, and what a turn leaves of what remains and does not
fit. -/
inductive Remains (limit : ℕ) : List Char → List Char → Prop
  | self (text : List Char) : Remains limit text text
  | turn {text later : List Char} (hlong : limit < text.length)
      (hlater : Remains limit (afterCut limit text) later) : Remains limit text later

/-- A turn cuts a chunk off, and what it removes besides is white space. -/
theorem cutsInto_turn {limit : ℕ} {remaining : List Char} {pieces : List (List Char)}
    (h : CutsInto isSpace (afterCut limit remaining) pieces) :
    CutsInto isSpace remaining
      (rstrip (remaining.take (cutAt limit remaining)) :: pieces) := by
  set cut := cutAt limit remaining with hcut
  have hfront : rstrip (remaining.take cut) ++ (remaining.take cut).rtakeWhile isSpace =
      remaining.take cut := List.rdropWhile_append_rtakeWhile
  have hback : (remaining.drop cut).takeWhile (· = '\n') ++ afterCut limit remaining =
      remaining.drop cut := List.takeWhile_append_dropWhile
  have hwhole : rstrip (remaining.take cut) ++
      ((remaining.take cut).rtakeWhile isSpace ++
        (remaining.drop cut).takeWhile (· = '\n')) ++ afterCut limit remaining = remaining := by
    rw [← List.append_assoc, hfront, List.append_assoc, hback, List.take_append_drop]
  have hgap : ∀ c ∈ (remaining.take cut).rtakeWhile isSpace ++
      (remaining.drop cut).takeWhile (· = '\n'), isSpace c := by
    intro c hc
    rcases List.mem_append.mp hc with hc | hc
    · exact List.mem_rtakeWhile_imp hc
    · have hnewline := List.mem_takeWhile_imp hc
      rw [of_decide_eq_true hnewline]
      decide
  have hcuts : CutsInto isSpace (rstrip (remaining.take cut) ++
      ((remaining.take cut).rtakeWhile isSpace ++
        (remaining.drop cut).takeWhile (· = '\n')) ++ afterCut limit remaining)
      (rstrip (remaining.take cut) :: pieces) := CutsInto.cons hgap h
  rwa [hwhole] at hcuts

/-- What remains at a turn that leaves an empty chunk. -/
def BlankTurn (limit : ℕ) (text : List Char) : Prop :=
  ∃ remaining, Remains limit text remaining ∧ limit < remaining.length ∧
    OpensBlank limit remaining

/-- What fits takes no turn. -/
theorem not_blankTurn_of_fits {limit : ℕ} {text : List Char} (hfits : text.length ≤ limit) :
    ¬BlankTurn limit text := by
  rintro ⟨remaining, hremains, hlong, -⟩
  cases hremains with
  | self => omega
  | turn hlong' hlater => omega

/-- The turns of a text are its first and those of what that leaves. -/
theorem blankTurn_iff {limit : ℕ} {text : List Char} (hlong : limit < text.length) :
    BlankTurn limit text ↔ OpensBlank limit text ∨ BlankTurn limit (afterCut limit text) := by
  constructor
  · rintro ⟨remaining, hremains, hlong', hblank⟩
    cases hremains with
    | self => exact Or.inl hblank
    | turn _ hlater => exact Or.inr ⟨remaining, hlater, hlong', hblank⟩
  · rintro (hblank | ⟨remaining, hremains, hlong', hblank⟩)
    · exact ⟨text, .self text, hlong, hblank⟩
    · exact ⟨remaining, .turn hlong hremains, hlong', hblank⟩

/-- The chunks of a text: they fit, they are the text up to white space between them, and one is
empty exactly when a turn opens blank. -/
structure ChunksOf (limit : ℕ) (text : List Char) (chunks : List (List Char)) : Prop where
  fits : ∀ chunk ∈ chunks, chunk.length ≤ limit
  cuts : CutsInto isSpace text chunks
  empty : [] ∈ chunks ↔ BlankTurn limit text

/-- **The loop ends**, and adds the chunks of what remained. -/
theorem splitTurn_ends {limit : ℕ} (hlimit : 1 ≤ limit) (chunks : List (List Char))
    (remaining : List Char) :
    ∃ s, Ends (splitTurn limit) ⟨chunks, remaining⟩ s ∧
      ∃ more, s.result = chunks ++ more ∧ ChunksOf limit remaining more := by
  induction hn : remaining.length using Nat.strong_induction_on generalizing chunks remaining with
  | _ n ih =>
    by_cases hlong : limit < remaining.length
    · set chunk := rstrip (remaining.take (cutAt limit remaining)) with hchunk
      have hturn : splitTurn limit ⟨chunks, remaining⟩ =
          some ⟨chunks ++ [chunk], afterCut limit remaining⟩ := by
        simp [splitTurn, hlong, hchunk]
      obtain ⟨s, hends, more, hresult, hmore⟩ := ih _
        (hn ▸ length_afterCut_lt hlimit hlong) (chunks ++ [chunk]) (afterCut limit remaining) rfl
      refine ⟨s, Ends.of_some hturn hends, chunk :: more, by simp [hresult], ?_, ?_, ?_⟩
      · intro c hc
        rcases List.mem_cons.mp hc with rfl | hc
        · have hsub := (List.rdropWhile_prefix isSpace
            (remaining.take (cutAt limit remaining))).length_le
          have hle : cutAt limit remaining ≤ limit := cutAt_le
          simp only [List.length_take] at hsub
          simp only [hchunk, rstrip]
          omega
        · exact hmore.fits c hc
      · exact cutsInto_turn hmore.cuts
      · rw [List.mem_cons, hmore.empty, blankTurn_iff hlong, ← rstrip_take_eq_nil_iff hlong,
          eq_comm]
    · have hexit : splitTurn limit ⟨chunks, remaining⟩ = none := by
        simp [splitTurn, hlong]
      have hblank := not_blankTurn_of_fits (not_lt.mp hlong)
      refine ⟨_, Ends.of_none hexit, ?_⟩
      by_cases hnil : remaining = []
      · refine ⟨[], by simp [MessageSplit.result, hnil], by simp, hnil ▸ CutsInto.nil, ?_⟩
        simp [hblank]
      · refine ⟨[remaining], by simp [MessageSplit.result, hnil], ?_, CutsInto.single _, ?_⟩
        · simpa using not_lt.mp hlong
        · simp [hblank, eq_comm, hnil]

/-- The chunks of a text that has a character besides white space. -/
theorem splitForTelegram_spec {text : List Char} {limit : ℕ} (hlimit : 1 ≤ limit)
    (htext : ∃ c ∈ text, isSpace c = false) :
    ∃ chunks, SplitForTelegram text limit chunks ∧ ChunksOf limit text chunks := by
  by_cases hfits : text.length ≤ limit
  · have hne : text ≠ [] := by
      rintro rfl
      simp at htext
    refine ⟨[text], by rw [SplitForTelegram, if_pos hfits], by simpa using hfits,
      CutsInto.single text, ?_⟩
    simp [not_blankTurn_of_fits hfits, eq_comm, hne]
  · obtain ⟨s, hends, more, hresult, hmore⟩ := splitTurn_ends hlimit [] text
    refine ⟨s.result, ?_, by simpa [hresult] using hmore⟩
    rw [SplitForTelegram, if_neg hfits]
    exact ⟨s, hends, rfl⟩

/-- It returns one list only. -/
theorem splitForTelegram_unique {text : List Char} {limit : ℕ} {chunks chunks' : List (List Char)}
    (h : SplitForTelegram text limit chunks) (h' : SplitForTelegram text limit chunks') :
    chunks = chunks' := by
  unfold SplitForTelegram at h h'
  split at h
  · next hfits => rw [h, if_pos hfits] at *; exact h'.symm
  · next hlong =>
    rw [if_neg hlong] at h'
    obtain ⟨s, hends, rfl⟩ := h
    obtain ⟨s', hends', rfl⟩ := h'
    rw [hends.unique hends']

/-- **Splitting a message.** The function returns, and each chunk has at least one and at most
`limit` characters, and the chunks are the text up to white space removed between them. -/
def SplitsSoundly (text : List Char) (limit : ℕ) : Prop :=
  ∃ chunks, SplitForTelegram text limit chunks ∧
    (∀ chunk ∈ chunks, chunk ≠ [] ∧ chunk.length ≤ limit) ∧ CutsInto isSpace text chunks

/-- A turn that opens blank adds an empty chunk. -/
theorem not_splitsSoundly {text : List Char} {limit : ℕ} (hlimit : 1 ≤ limit)
    (htext : ∃ c ∈ text, isSpace c = false) (hblank : BlankTurn limit text) :
    ¬SplitsSoundly text limit := by
  rintro ⟨chunks', hsplit', hsound, -⟩
  obtain ⟨chunks, hsplit, hchunks⟩ := splitForTelegram_spec hlimit htext
  have hempty : [] ∈ chunks := hchunks.empty.mpr hblank
  rw [splitForTelegram_unique hsplit hsplit'] at hempty
  exact (hsound [] hempty).1 rfl

/-- **Every message.** A text is split soundly exactly when no turn opens blank.
SOURCE: bots/telegram/commands.py:42-56 -/
theorem splits_soundly_iff (text : List Char) (limit : ℕ) (hlimit : 1 ≤ limit)
    (htext : ∃ c ∈ text, isSpace c = false) :
    SplitsSoundly text limit ↔ ¬BlankTurn limit text := by
  constructor
  · intro hsound hblank
    exact not_splitsSoundly hlimit htext hblank hsound
  · intro hblank
    obtain ⟨chunks, hsplit, hchunks⟩ := splitForTelegram_spec hlimit htext
    refine ⟨chunks, hsplit, fun chunk hchunk => ⟨?_, hchunks.fits chunk hchunk⟩, hchunks.cuts⟩
    rintro rfl
    exact hblank (hchunks.empty.mp hchunk)

/-- A reply of two words, each in a chunk of its own. -/
theorem splits_soundly_words : SplitsSoundly ['a', 'b', ' ', 'c', 'd'] 3 := by
  have hletter : isSpace 'a' = false := by decide
  refine (splits_soundly_iff _ 3 (by omega) ⟨'a', by simp, hletter⟩).mpr ?_
  have hfront : ¬OpensBlank 3 ['a', 'b', ' ', 'c', 'd'] := by
    simp [OpensBlank, hletter]
  have hrest : afterCut 3 ['a', 'b', ' ', 'c', 'd'] = ['c', 'd'] := by decide
  rw [blankTurn_iff (by simp), hrest, not_or]
  exact ⟨hfront, not_blankTurn_of_fits (by simp)⟩

/-- As many blanks as fit into a message make the first turn open blank. -/
theorem blankTurn_blanks (limit : ℕ) :
    BlankTurn limit (List.replicate limit ' ' ++ ['a']) := by
  have hspace : isSpace ' ' = true := by decide
  refine ⟨_, .self _, by simp, Or.inl ?_⟩
  rw [List.takeWhile_append_of_pos]
  · simp
  · intro c hc
    rw [List.eq_of_mem_replicate hc, hspace]

/-- A reply that begins with so many: the first chunk is empty. -/
theorem not_splitsSoundly_blanks : ¬SplitsSoundly (List.replicate 4000 ' ' ++ ['a']) 4000 := by
  have hletter : isSpace 'a' = false := by decide
  have hmem : 'a' ∈ List.replicate 4000 ' ' ++ ['a'] := List.mem_append_right _ (by simp)
  exact not_splitsSoundly (by omega) ⟨'a', hmem, hletter⟩ (blankTurn_blanks 4000)

/-! ## Texts that are split soundly -/

/-- What remains is the end of the text. -/
theorem Remains.suffix {limit : ℕ} {text remaining : List Char}
    (h : Remains limit text remaining) : remaining <:+ text := by
  induction h with
  | self text => exact List.suffix_rfl
  | turn _ _ ih =>
    exact ih.trans ((List.dropWhile_suffix _).trans (List.drop_suffix _ _))

/-- A text that opens blank does so with more than half a message of white space. -/
theorem lt_length_of_opensBlank {limit : ℕ} {remaining : List Char} (hlimit : 1 ≤ limit)
    (h : OpensBlank limit remaining) :
    limit / 2 < (remaining.takeWhile isSpace).length := by
  rcases h with h | ⟨cut, -, hhalf, hcut⟩
  · omega
  · omega

/-- **Ordinary texts.** A text without more than half a message of white space at a stretch is
split soundly, and what is not white space is in the chunks, once and in order. -/
theorem splits_of_short_gaps {text : List Char} {limit : ℕ} (hlimit : 1 ≤ limit)
    (htext : ∃ c ∈ text, isSpace c = false)
    (hgaps : ∀ gap, gap <:+: text → (∀ c ∈ gap, isSpace c) → gap.length ≤ limit / 2) :
    ∃ chunks, SplitForTelegram text limit chunks ∧
      (∀ chunk ∈ chunks, chunk ≠ [] ∧ chunk.length ≤ limit) ∧
      chunks.flatten.filter (fun c => !isSpace c) = text.filter fun c => !isSpace c := by
  obtain ⟨chunks, hsplit, hchunks⟩ := splitForTelegram_spec hlimit htext
  have hblank : ¬BlankTurn limit text := by
    rintro ⟨remaining, hremains, -, hopens⟩
    have hlong := lt_length_of_opensBlank hlimit hopens
    have hinfix : remaining.takeWhile isSpace <:+: text :=
      (List.takeWhile_prefix isSpace).isInfix.trans hremains.suffix.isInfix
    have hshort := hgaps _ hinfix fun c hc => List.mem_takeWhile_imp hc
    omega
  refine ⟨chunks, hsplit, fun chunk hchunk => ⟨?_, hchunks.fits chunk hchunk⟩,
    hchunks.cuts.filter_eq⟩
  rintro rfl
  exact hblank (hchunks.empty.mp hchunk)

end TradingEdge.Analysis
