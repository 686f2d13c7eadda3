import Mathlib.Data.List.Induction
import Mathlib.Order.BoundedOrder.Basic
import Mathlib.Order.Lattice
import TradingEdge.Library.Machine

/-!
# Feeds acknowledged by a cursor

A server holds items of increasing keys until a request acknowledges them: a request with the
cursor `acked` makes it forget what has a key up to `acked`, and is answered with some of the
first items that are left.  The consumer keeps the cursor and what it has fetched in memory only.
It handles what it fetched before it asks again, and its cursor moves to the last key it fetched.

Requests and answers get lost, the server drops old items and the consumer restarts, in any
order.  `kept_run` says that no item is lost but by the server's own dropping, and `inOrder_run` that
a session handles in order and once: an item is handled twice only if the consumer restarted before
it asked again (`behind_turn`).
-/

set_option autoImplicit false

namespace TradingEdge.Library

variable {Item Ctx Mem Out K : Type}

/-- The server and the consumer: what the server holds and the last key it gave out, and the
cursor, the fetched items still to handle and the memory of the consumer. -/
structure AckFeed (Item Mem K : Type) where
  pending : List Item
  newest : K
  acked : K
  batch : List Item
  memory : Mem

namespace AckFeed

/-- What may happen: an item arrives, the oldest one is dropped, the consumer asks (the request
arrives or not) and gets an answer, handles its next item or restarts. -/
inductive Move (Item Ctx : Type) where
  | arrive (x : Item)
  | expire
  | ask (received : Bool) (reply : List Item)
  | handle (c : Ctx)
  | restart

/-- What is noted down of a step. -/
inductive Note (Item Ctx Out : Type) where
  | arrived (x : Item)
  | expired (x : Item)
  | asked
  | handled (x : Item) (c : Ctx) (out : List Out)
  | restarted

/-- A request that arrived, or a restart. -/
def Note.isMark : Note Item Ctx Out → Bool
  | .asked => true
  | .restarted => true
  | _ => false

/-- What a note says was handled, and in which context. -/
def Note.served : Note Item Ctx Out → Option (Item × Ctx)
  | .handled x c _ => some (x, c)
  | _ => none

/-- What a note says came out of the handler. -/
def Note.outputs : Note Item Ctx Out → List Out
  | .handled _ _ out => out
  | _ => []

/-- What a note says arrived. -/
def Note.arrival : Note Item Ctx Out → Option Item
  | .arrived x => some x
  | _ => none

section Step

variable [LinearOrder K] [OrderBot K] (key : Item → K)

/-- What the server keeps of its items when it learns of a cursor. -/
def confirm (acked : K) (pending : List Item) : List Item :=
  pending.filter fun x => acked < key x

/-- The cursor after an answer. -/
def advance (acked : K) (reply : List Item) : K :=
  match reply.getLast? with
  | none => acked
  | some x => key x

variable (m : Machine Mem (Item × Ctx) Out) (init : Mem)

def step (s : AckFeed Item Mem K) : Move Item Ctx → AckFeed Item Mem K × List (Note Item Ctx Out)
  | .arrive x => ({ s with pending := s.pending ++ [x], newest := key x }, [.arrived x])
  | .expire =>
    match s.pending with
    | [] => (s, [])
    | x :: rest => ({ s with pending := rest }, [.expired x])
  | .ask received reply =>
    match s.batch with
    | [] =>
      ({ s with
          pending := if received then confirm key s.acked s.pending else s.pending
          acked := advance key s.acked reply
          batch := reply },
        if received then [.asked] else [])
    | _ :: _ => (s, [])
  | .handle c =>
    match s.batch with
    | [] => (s, [])
    | x :: rest =>
      ({ s with batch := rest, memory := m.next s.memory (x, c) },
        [.handled x c (m.emits s.memory (x, c))])
  | .restart => ({ s with acked := ⊥, batch := [], memory := init }, [.restarted])

def machine : Machine (AckFeed Item Mem K) (Move Item Ctx) (Note Item Ctx Out) :=
  ⟨step key m init⟩

/-- What the server promises: keys increase, and an answer lists the first of the items that are
left, or nothing if the request did not arrive. -/
def Served (s : AckFeed Item Mem K) : Move Item Ctx → Prop
  | .arrive x => s.newest < key x
  | .ask received reply =>
    s.batch = [] → if received then reply <+: confirm key s.acked s.pending else reply = []
  | _ => True

/-- Nothing has arrived yet. -/
def start : AckFeed Item Mem K := ⟨[], ⊥, ⊥, [], init⟩

end Step

/-! ## What a step does -/

/-- A confirmed item is forgotten, and no other. -/
theorem mem_confirm [LinearOrder K] (key : Item → K) (acked : K) (pending : List Item) (x : Item) :
    x ∈ confirm key acked pending ↔ x ∈ pending ∧ acked < key x := by
  simp [confirm]

/-- The cursor ends behind every item of a sorted answer. -/
theorem le_advance [LinearOrder K] (key : Item → K) (acked : K) (reply : List Item)
    (hsorted : reply.Pairwise fun x y => key x < key y) (x : Item) (hx : x ∈ reply) :
    key x ≤ advance key acked reply := by
  rcases List.eq_nil_or_concat reply with rfl | ⟨front, last, rfl⟩
  · exact absurd hx List.not_mem_nil
  · rw [List.concat_eq_append] at hx hsorted ⊢
    simp only [advance, List.getLast?_append, List.getLast?_singleton, Option.some_or]
    rcases List.mem_append.mp hx with hfront | hlast
    · exact ((List.pairwise_append.mp hsorted).2.2 x hfront last (List.mem_singleton.mpr rfl)).le
    · rw [List.mem_singleton.mp hlast]

/-- The cursor is where it was or at an item of the answer. -/
theorem advance_cases (key : Item → K) (acked : K) (reply : List Item) :
    advance key acked reply = acked ∧ reply = [] ∨
      ∃ x ∈ reply, advance key acked reply = key x := by
  unfold advance
  cases hlast : reply.getLast? with
  | none => exact .inl ⟨rfl, List.getLast?_eq_none_iff.mp hlast⟩
  | some x => exact .inr ⟨x, List.mem_of_getLast? hlast, rfl⟩

variable [LinearOrder K] [OrderBot K] (key : Item → K) (m : Machine Mem (Item × Ctx) Out)
  (init : Mem)

/-- The server's items and the fetched ones are in order, and the cursor bounds what was
fetched. -/
structure Tidy (s : AckFeed Item Mem K) : Prop where
  pending_sorted : s.pending.Pairwise fun x y => key x < key y
  pending_pos : ∀ x ∈ s.pending, ⊥ < key x
  pending_le : ∀ x ∈ s.pending, key x ≤ s.newest
  acked_le : s.acked ≤ s.newest
  batch_sorted : s.batch.Pairwise fun x y => key x < key y
  batch_le : ∀ x ∈ s.batch, key x ≤ s.acked

/-- The steps of a feed whose server keeps its promises. -/
inductive Turn (s : AckFeed Item Mem K) : AckFeed Item Mem K → List (Note Item Ctx Out) → Prop
  | still : Turn s s []
  | arrive (x : Item) (hnew : s.newest < key x) :
    Turn s { s with pending := s.pending ++ [x], newest := key x } [.arrived x]
  | expire (x : Item) (rest : List Item) (hpending : s.pending = x :: rest) :
    Turn s { s with pending := rest } [.expired x]
  | ask (reply : List Item) (hbatch : s.batch = [])
    (hanswer : reply <+: confirm key s.acked s.pending) :
    Turn s { s with
        pending := confirm key s.acked s.pending
        acked := advance key s.acked reply
        batch := reply } [.asked]
  | handle (x : Item) (rest : List Item) (c : Ctx) (hbatch : s.batch = x :: rest) :
    Turn s { s with batch := rest, memory := m.next s.memory (x, c) }
      [.handled x c (m.emits s.memory (x, c))]
  | restart : Turn s { s with acked := ⊥, batch := [], memory := init } [.restarted]

/-- With a server that keeps its promises every step is a turn. -/
theorem turn_of_served (s : AckFeed Item Mem K) (l : Move Item Ctx) (hl : Served key s l) :
    Turn key m init s ((machine key m init).next s l) ((machine key m init).emits s l) := by
  obtain ⟨pending, newest, acked, batch, memory⟩ := s
  cases l with
  | arrive x => exact .arrive x hl
  | expire =>
    cases pending with
    | nil => exact .still
    | cons x rest => exact .expire x rest rfl
  | ask received reply =>
    cases batch with
    | cons x rest => exact .still
    | nil =>
      cases received with
      | true => exact .ask reply rfl (hl rfl)
      | false =>
        -- a request that does not arrive is answered with nothing and changes nothing
        obtain rfl : reply = [] := hl rfl
        exact .still
  | handle c =>
    cases batch with
    | nil => exact .still
    | cons x rest => exact .handle x rest c rfl
  | restart => exact .restart

/-- The empty feed is tidy. -/
theorem tidy_start : Tidy key (start init : AckFeed Item Mem K) where
  pending_sorted := List.Pairwise.nil
  pending_pos := by simp [start]
  pending_le := by simp [start]
  acked_le := le_rfl
  batch_sorted := List.Pairwise.nil
  batch_le := by simp [start]

variable {key m init}

/-- What an answer lists is in order. -/
theorem Tidy.reply_sorted {s : AckFeed Item Mem K} (hs : Tidy key s) {reply : List Item}
    (hanswer : reply <+: confirm key s.acked s.pending) :
    reply.Pairwise fun x y => key x < key y :=
  (hs.pending_sorted.sublist List.filter_sublist).sublist hanswer.sublist

/-- A turn keeps the feed tidy. -/
theorem Tidy.turn {s s' : AckFeed Item Mem K} {es : List (Note Item Ctx Out)} (hs : Tidy key s)
    (h : Turn key m init s s' es) : Tidy key s' := by
  cases h with
  | still => exact hs
  | arrive x hnew =>
    refine ⟨?_, ?_, ?_, hs.acked_le.trans hnew.le, hs.batch_sorted, hs.batch_le⟩
    · refine List.pairwise_append.mpr ⟨hs.pending_sorted, List.pairwise_singleton _ _, ?_⟩
      intro y hy z hz
      rw [List.mem_singleton.mp hz]
      exact (hs.pending_le y hy).trans_lt hnew
    · intro y hy
      rcases List.mem_append.mp hy with hold | hlast
      · exact hs.pending_pos y hold
      · rw [List.mem_singleton.mp hlast]
        exact bot_le.trans_lt hnew
    · intro y hy
      rcases List.mem_append.mp hy with hold | hlast
      · exact (hs.pending_le y hold).trans hnew.le
      · rw [List.mem_singleton.mp hlast]
  | expire x rest hpending =>
    have hsub : ∀ y ∈ rest, y ∈ s.pending := by
      intro y hy
      rw [hpending]
      exact List.mem_cons_of_mem x hy
    exact ⟨(List.pairwise_cons.mp (hpending ▸ hs.pending_sorted)).2,
      fun y hy => hs.pending_pos y (hsub y hy), fun y hy => hs.pending_le y (hsub y hy),
      hs.acked_le, hs.batch_sorted, hs.batch_le⟩
  | ask reply hbatch hanswer =>
    have hsorted := hs.reply_sorted hanswer
    have hsub : ∀ x ∈ confirm key s.acked s.pending, x ∈ s.pending :=
      fun x hx => ((mem_confirm key _ _ x).mp hx).1
    refine ⟨hs.pending_sorted.sublist List.filter_sublist, fun x hx => hs.pending_pos x (hsub x hx),
      fun x hx => hs.pending_le x (hsub x hx), ?_, hsorted,
      fun x hx => le_advance key s.acked reply hsorted x hx⟩
    rcases advance_cases key s.acked reply with ⟨hsame, -⟩ | ⟨x, hx, hmoved⟩
    · exact hsame.trans_le hs.acked_le
    · exact hmoved.trans_le (hs.pending_le x (hsub x (hanswer.subset hx)))
  | handle x rest c hbatch =>
    refine ⟨hs.pending_sorted, hs.pending_pos, hs.pending_le, hs.acked_le, ?_, ?_⟩
    · exact (List.pairwise_cons.mp (hbatch ▸ hs.batch_sorted)).2
    · intro y hy
      exact hs.batch_le y (hbatch ▸ List.mem_cons_of_mem x hy)
  | restart =>
    exact ⟨hs.pending_sorted, hs.pending_pos, hs.pending_le, bot_le, List.Pairwise.nil, by simp⟩

/-- **Induction over the runs of a feed**, on the state and the notes so far. -/
theorem run_induction (I : AckFeed Item Mem K → List (Note Item Ctx Out) → Prop)
    (s₀ : AckFeed Item Mem K) (hs₀ : Tidy key s₀) (h0 : I s₀ [])
    (hturn : ∀ s notes s' es, Tidy key s → I s notes → Turn key m init s s' es →
      I s' (notes ++ es))
    (ls : List (Move Item Ctx)) (hls : (machine key m init).Along (Served key) s₀ ls) :
    Tidy key ((machine key m init).final s₀ ls) ∧
      I ((machine key m init).final s₀ ls) ((machine key m init).trace s₀ ls) := by
  refine (machine key m init).invariant
    (fun pre l => Served key ((machine key m init).final s₀ pre) l)
    (fun _ s notes => Tidy key s ∧ I s notes) s₀ ⟨hs₀, h0⟩ ?_ ls hls
  rintro pre l hl ⟨htidy, hI⟩
  have h := turn_of_served key m init _ l hl
  exact ⟨htidy.turn h, hturn _ _ _ _ htidy hI h⟩

/-- The order of the keys holds after every run. -/
theorem tidy_run (ls : List (Move Item Ctx))
    (hls : (machine key m init).Along (Served key) (start init) ls) :
    Tidy key ((machine key m init).final (start init) ls) :=
  (run_induction (fun _ _ => True) _ (tidy_start key init) trivial (fun _ _ _ _ _ _ _ => trivial)
    ls hls).1

/-! ## No item is lost -/

/-- An item has been handled, in some context. -/
def Handled (notes : List (Note Item Ctx Out)) (x : Item) : Prop :=
  ∃ c out, Note.handled x c out ∈ notes

/-- What was handled stays so. -/
theorem Handled.append {notes : List (Note Item Ctx Out)} {x : Item} (h : Handled notes x)
    (es : List (Note Item Ctx Out)) : Handled (notes ++ es) x := by
  obtain ⟨c, out, hmem⟩ := h
  exact ⟨c, out, List.mem_append_left es hmem⟩

/-- Every item that arrived is done with, fetched or still on offer, and a fetched one that is
not done with can be fetched again. -/
structure Kept (key : Item → K) (s : AckFeed Item Mem K) (notes : List (Note Item Ctx Out)) :
    Prop where
  arrived : ∀ x, Note.arrived x ∈ notes → Handled notes x ∨ Note.expired x ∈ notes ∨
    x ∈ s.batch ∨ x ∈ s.pending ∧ s.acked < key x
  fetched : ∀ x ∈ s.batch, Handled notes x ∨ Note.expired x ∈ notes ∨ x ∈ s.pending

/-- A turn keeps every item: handled, dropped, fetched or on offer. -/
theorem kept_turn {s s' : AckFeed Item Mem K} {notes es : List (Note Item Ctx Out)}
    (hs : Tidy key s) (hkept : Kept key s notes) (h : Turn key m init s s' es) :
    Kept key s' (notes ++ es) := by
  cases h with
  | still =>
    rw [List.append_nil]
    exact hkept
  | arrive y hnew =>
    constructor
    · intro x hx
      simp only [List.mem_append, List.mem_singleton, Note.arrived.injEq] at hx
      rcases hx with hold | rfl
      · rcases hkept.arrived x hold with h | h | h | ⟨h, hlt⟩
        · exact .inl (h.append _)
        · exact .inr (.inl (List.mem_append_left _ h))
        · exact .inr (.inr (.inl h))
        · exact .inr (.inr (.inr ⟨List.mem_append_left _ h, hlt⟩))
      · exact .inr (.inr (.inr ⟨List.mem_append_right _ (List.mem_singleton.mpr rfl),
          hs.acked_le.trans_lt hnew⟩))
    · intro x hx
      rcases hkept.fetched x hx with h | h | h
      · exact .inl (h.append _)
      · exact .inr (.inl (List.mem_append_left _ h))
      · exact .inr (.inr (List.mem_append_left _ h))
  | expire y rest hpending =>
    -- what leaves the server here is noted down as expired
    have hleft : ∀ x ∈ s.pending, Note.expired x ∈ notes ++ [.expired y] ∨ x ∈ rest := by
      intro x hx
      rw [hpending] at hx
      rcases List.mem_cons.mp hx with rfl | hrest
      · exact .inl (List.mem_append_right _ (List.mem_singleton.mpr rfl))
      · exact .inr hrest
    constructor
    · intro x hx
      rw [List.mem_append] at hx
      rcases hx with hold | hlast
      · rcases hkept.arrived x hold with h | h | h | ⟨h, hlt⟩
        · exact .inl (h.append _)
        · exact .inr (.inl (List.mem_append_left _ h))
        · exact .inr (.inr (.inl h))
        · rcases hleft x h with hexp | hrest
          · exact .inr (.inl hexp)
          · exact .inr (.inr (.inr ⟨hrest, hlt⟩))
      · simp at hlast
    · intro x hx
      rcases hkept.fetched x hx with h | h | h
      · exact .inl (h.append _)
      · exact .inr (.inl (List.mem_append_left _ h))
      · exact .inr (hleft x h)
  | ask reply hbatch hanswer =>
    constructor
    · intro x hx
      rw [List.mem_append] at hx
      rcases hx with hold | hlast
      · rcases hkept.arrived x hold with h | h | h | ⟨h, hlt⟩
        · exact .inl (h.append _)
        · exact .inr (.inl (List.mem_append_left _ h))
        · rw [hbatch] at h
          exact absurd h List.not_mem_nil
        · have hconf : x ∈ confirm key s.acked s.pending := (mem_confirm key _ _ x).mpr ⟨h, hlt⟩
          -- what is left behind the new cursor is not in the answer
          by_cases hreply : x ∈ reply
          · exact .inr (.inr (.inl hreply))
          · refine .inr (.inr (.inr ⟨hconf, ?_⟩))
            rcases advance_cases key s.acked reply with ⟨hsame, -⟩ | ⟨z, hz, hmoved⟩
            · exact hsame.trans_lt hlt
            · obtain ⟨tail, htail⟩ := hanswer
              have hsorted := hs.pending_sorted.sublist
                (List.filter_sublist (p := fun x => decide (s.acked < key x)))
              have hin : x ∈ tail := by
                have hmem : x ∈ reply ++ tail := htail.symm ▸ hconf
                exact (List.mem_append.mp hmem).resolve_left hreply
              rw [hmoved]
              change (confirm key s.acked s.pending).Pairwise _ at hsorted
              rw [← htail] at hsorted
              exact (List.pairwise_append.mp hsorted).2.2 z hz x hin
      · simp at hlast
    · intro x hx
      exact .inr (.inr (hanswer.subset hx))
  | handle y rest c hbatch =>
    have hdone : Handled (notes ++ [.handled y c (m.emits s.memory (y, c))]) y :=
      ⟨c, _, List.mem_append_right _ (List.mem_singleton.mpr rfl)⟩
    constructor
    · intro x hx
      rw [List.mem_append] at hx
      rcases hx with hold | hlast
      · rcases hkept.arrived x hold with h | h | h | h
        · exact .inl (h.append _)
        · exact .inr (.inl (List.mem_append_left _ h))
        · rw [hbatch] at h
          rcases List.mem_cons.mp h with rfl | hrest
          · exact .inl hdone
          · exact .inr (.inr (.inl hrest))
        · exact .inr (.inr (.inr h))
      · simp at hlast
    · intro x hx
      rcases hkept.fetched x (hbatch ▸ List.mem_cons_of_mem y hx) with h | h | h
      · exact .inl (h.append _)
      · exact .inr (.inl (List.mem_append_left _ h))
      · exact .inr (.inr h)
  | restart =>
    constructor
    · intro x hx
      rw [List.mem_append] at hx
      rcases hx with hold | hlast
      · have hpos : x ∈ s.pending → x ∈ s.pending ∧ ⊥ < key x :=
          fun hx => ⟨hx, hs.pending_pos x hx⟩
        rcases hkept.arrived x hold with h | h | h | ⟨h, -⟩
        · exact .inl (h.append _)
        · exact .inr (.inl (List.mem_append_left _ h))
        · -- a fetched item is fetched again after the restart
          rcases hkept.fetched x h with h | h | h
          · exact .inl (h.append _)
          · exact .inr (.inl (List.mem_append_left _ h))
          · exact .inr (.inr (.inr (hpos h)))
        · exact .inr (.inr (.inr (hpos h)))
      · simp at hlast
    · intro x hx
      exact absurd hx List.not_mem_nil

/-- **No item is lost.** Whatever is lost or restarted, an item that arrived has been handled, has
been dropped by the server for its age, waits to be handled, or is on offer still. -/
theorem kept_run (ls : List (Move Item Ctx))
    (hls : (machine key m init).Along (Served key) (start init) ls) :
    Kept key ((machine key m init).final (start init) ls)
      ((machine key m init).trace (start init) ls) :=
  (run_induction (Kept key) _ (tidy_start key init) ⟨by simp, by simp [start]⟩
    (fun _ _ _ _ => kept_turn) ls hls).2

/-! ## Order and repetition -/

/-- No item with the key of `x` is held or fetched, and none will come. -/
structure Spent (key : Item → K) (s : AckFeed Item Mem K) (x : Item) : Prop where
  pending : ∀ y ∈ s.pending, key y ≠ key x
  batch : ∀ y ∈ s.batch, key y ≠ key x
  le_newest : key x ≤ s.newest

/-- Where the feed stands with an item that was handled, by the notes since: the session is behind
the item until it ends, and the item is spent once the consumer has asked in the same session. -/
structure Behind (key : Item → K) (s : AckFeed Item Mem K) (x : Item)
    (since : List (Note Item Ctx Out)) : Prop where
  session : Note.restarted ∉ since → key x ≤ s.acked ∧ ∀ y ∈ s.batch, key x < key y
  spent : since.find? Note.isMark = some .asked → Spent key s x

/-- Without a mark there is no restart. -/
theorem notMem_restarted_of_find? {notes : List (Note Item Ctx Out)}
    (h : notes.find? Note.isMark = none) : Note.restarted ∉ notes := by
  intro hmem
  exact absurd (List.find?_eq_none.mp h _ hmem) (by simp [Note.isMark])

/-- The first mark is the same before a note that is none. -/
theorem find?_isMark_of_concat {notes : List (Note Item Ctx Out)} {e mark : Note Item Ctx Out}
    (he : e.isMark = false) (h : (notes ++ [e]).find? Note.isMark = some mark) :
    notes.find? Note.isMark = some mark := by
  simpa [List.find?_append, he] using h

/-- A turn keeps the feed behind an item that was handled. -/
theorem behind_turn {s s' : AckFeed Item Mem K} {x : Item} {since es : List (Note Item Ctx Out)}
    (hs : Tidy key s) (hx : Behind key s x since) (h : Turn key m init s s' es) :
    Behind key s' x (since ++ es) := by
  have hsession : Note.restarted ∉ since ++ es → Note.restarted ∉ since :=
    fun hno hmem => hno (List.mem_append_left es hmem)
  cases h with
  | still =>
    rw [List.append_nil]
    exact hx
  | arrive y hnew =>
    refine ⟨fun hno => hx.session (hsession hno), fun hfind => ?_⟩
    obtain ⟨hpending, hbatch, hle⟩ := hx.spent (find?_isMark_of_concat rfl hfind)
    refine ⟨?_, hbatch, hle.trans hnew.le⟩
    intro z hz
    rcases List.mem_append.mp hz with hold | hlast
    · exact hpending z hold
    · rw [List.mem_singleton.mp hlast]
      exact (hle.trans_lt hnew).ne'
  | expire y rest hrest =>
    refine ⟨fun hno => hx.session (hsession hno), fun hfind => ?_⟩
    obtain ⟨hpending, hbatch, hle⟩ := hx.spent (find?_isMark_of_concat rfl hfind)
    exact ⟨fun z hz => hpending z (hrest ▸ List.mem_cons_of_mem y hz), hbatch, hle⟩
  | ask reply hbatch hanswer =>
    have hafter : ∀ y ∈ confirm key s.acked s.pending, s.acked < key y :=
      fun y hy => ((mem_confirm key _ _ y).mp hy).2
    refine ⟨fun hno => ?_, fun hfind => ?_⟩
    · obtain ⟨hle, -⟩ := hx.session (hsession hno)
      refine ⟨hle.trans ?_, fun y hy => hle.trans_lt (hafter y (hanswer.subset hy))⟩
      rcases advance_cases key s.acked reply with ⟨hsame, -⟩ | ⟨z, hz, hmoved⟩
      · exact hsame.ge
      · exact hmoved ▸ (hafter z (hanswer.subset hz)).le
    · cases hmark : since.find? Note.isMark with
      | none =>
        -- this request is the first one since: it acknowledges the item
        obtain ⟨hle, -⟩ := hx.session (notMem_restarted_of_find? hmark)
        exact ⟨fun y hy => (hle.trans_lt (hafter y hy)).ne',
          fun y hy => (hle.trans_lt (hafter y (hanswer.subset hy))).ne', hle.trans hs.acked_le⟩
      | some mark =>
        rw [List.find?_append, hmark, Option.some_or] at hfind
        obtain ⟨hpending, -, hle⟩ := hx.spent (hmark.trans hfind)
        have hconf : ∀ y ∈ confirm key s.acked s.pending, key y ≠ key x :=
          fun y hy => hpending y ((mem_confirm key _ _ y).mp hy).1
        exact ⟨hconf, fun y hy => hconf y (hanswer.subset hy), hle⟩
  | handle y rest c hrest =>
    have hsub : ∀ z ∈ rest, z ∈ s.batch := by
      intro z hz
      rw [hrest]
      exact List.mem_cons_of_mem y hz
    refine ⟨fun hno => ?_, fun hfind => ?_⟩
    · obtain ⟨hle, hbatch⟩ := hx.session (hsession hno)
      exact ⟨hle, fun z hz => hbatch z (hsub z hz)⟩
    · obtain ⟨hpending, hbatch, hle⟩ := hx.spent (find?_isMark_of_concat rfl hfind)
      exact ⟨hpending, fun z hz => hbatch z (hsub z hz), hle⟩
  | restart =>
    refine ⟨fun hno => absurd (List.mem_append_right _ (List.mem_singleton.mpr rfl)) hno,
      fun hfind => ?_⟩
    have hspent : since.find? Note.isMark = some .asked := by
      cases hmark : since.find? Note.isMark with
      | none => simp [List.find?_append, hmark, Note.isMark] at hfind
      | some mark =>
        rw [List.find?_append, hmark, Option.some_or] at hfind
        exact hfind
    obtain ⟨hpending, -, hle⟩ := hx.spent hspent
    exact ⟨hpending, by simp, hle⟩

/-- An item at the end of a list, or in the list before. -/
theorem eq_concat_split {α : Type} {front back : List α} {a e : α} {l : List α}
    (h : l ++ [e] = front ++ a :: back) :
    (front = l ∧ a = e ∧ back = []) ∨ ∃ back', back = back' ++ [e] ∧ l = front ++ a :: back' := by
  rcases List.eq_nil_or_concat back with rfl | ⟨back', last, rfl⟩
  · obtain ⟨hl, he⟩ := List.append_singleton_inj.mp h
    exact .inl ⟨hl.symm, he.symm, rfl⟩
  · rw [List.concat_eq_append, ← List.cons_append, ← List.append_assoc] at h
    obtain ⟨hl, he⟩ := List.append_singleton_inj.mp h
    exact .inr ⟨back', by rw [List.concat_eq_append, he], hl⟩

/-- What the notes say of two handlings, one after the other: within a session keys increase, and
the same key comes again only after a restart that no request preceded. -/
def InOrder (key : Item → K) (notes : List (Note Item Ctx Out)) : Prop :=
  ∀ front x c out since y c' out' back,
    notes = front ++ .handled x c out :: (since ++ .handled y c' out' :: back) →
      (Note.restarted ∉ since → key x < key y) ∧
        (key x = key y → since.find? Note.isMark = some .restarted)

/-- The feed is behind everything handled. -/
def AllBehind (key : Item → K) (s : AckFeed Item Mem K) (notes : List (Note Item Ctx Out)) :
    Prop :=
  ∀ front x c out since, notes = front ++ .handled x c out :: since → Behind key s x since

/-- A turn keeps the feed behind everything handled. -/
theorem allBehind_turn {s s' : AckFeed Item Mem K} {notes es : List (Note Item Ctx Out)}
    (hs : Tidy key s) (hnotes : AllBehind key s notes) (h : Turn key m init s s' es) :
    AllBehind key s' (notes ++ es) := by
  intro front x c out since heq
  by_cases hes : es = []
  · rw [hes, List.append_nil] at heq
    have hx := behind_turn hs (hnotes front x c out since heq) h
    rwa [hes, List.append_nil] at hx
  · obtain ⟨e, rfl⟩ : ∃ e, es = [e] := by
      cases h with
      | still => exact absurd rfl hes
      | _ => exact ⟨_, rfl⟩
    rcases eq_concat_split heq with ⟨-, rfl, rfl⟩ | ⟨since', rfl, hold⟩
    · cases h with
      | handle _ rest _ hbatch =>
        have hsorted := hbatch ▸ hs.batch_sorted
        refine ⟨fun _ => ⟨hs.batch_le x (hbatch ▸ List.mem_cons_self), ?_⟩, by simp⟩
        exact (List.pairwise_cons.mp hsorted).1
    · exact behind_turn hs (hnotes front x c out since' hold) h

/-- A turn handles in order. -/
theorem inOrder_turn {s s' : AckFeed Item Mem K} {notes es : List (Note Item Ctx Out)}
    (hbehind : AllBehind key s notes) (hnotes : InOrder key notes)
    (h : Turn key m init s s' es) : InOrder key (notes ++ es) := by
  intro front x c out since y c' out' back heq
  by_cases hes : es = []
  · rw [hes, List.append_nil] at heq
    exact hnotes front x c out since y c' out' back heq
  · obtain ⟨e, rfl⟩ : ∃ e, es = [e] := by
      cases h with
      | still => exact absurd rfl hes
      | _ => exact ⟨_, rfl⟩
    rw [← List.cons_append, ← List.append_assoc] at heq
    rcases eq_concat_split heq with ⟨hall, rfl, rfl⟩ | ⟨back', rfl, hold⟩
    · -- the second handling is the new one, of the first item fetched
      cases h with
      | handle _ rest _ hbatch =>
        have hy : y ∈ s.batch := hbatch ▸ List.mem_cons_self
        obtain ⟨hsession, hspent⟩ := hbehind front x c out since hall.symm
        refine ⟨fun hno => (hsession hno).2 y hy, fun hkey => ?_⟩
        cases hmark : since.find? Note.isMark with
        | none =>
          have hlt := (hsession (notMem_restarted_of_find? hmark)).2 y hy
          exact absurd hkey hlt.ne
        | some mark =>
          cases mark with
          | restarted => rfl
          | asked => exact absurd hkey.symm ((hspent hmark).batch y hy)
          | _ => exact absurd (List.find?_some hmark) (by simp [Note.isMark])
    · rw [List.append_assoc, List.cons_append] at hold
      exact hnotes front x c out since y c' out' back' hold

/-- **Order and repetition.** A session handles in the order of the keys, each item once; and an
item is handled again only if the consumer restarted before it asked again. -/
theorem inOrder_run (ls : List (Move Item Ctx))
    (hls : (machine key m init).Along (Served key) (start init) ls) :
    InOrder key ((machine key m init).trace (start init) ls) := by
  have h := run_induction
    (fun s notes => AllBehind key s notes ∧ InOrder key notes) _ (tidy_start key init) ?_ ?_ ls hls
  · exact h.2.2
  · exact ⟨fun _ _ _ _ _ heq => by simp at heq, fun _ _ _ _ _ _ _ _ _ heq => by simp at heq⟩
  · rintro s notes s' es hs ⟨hbehind, hnotes⟩ hturn
    exact ⟨allBehind_turn hs hbehind hturn, inOrder_turn hbehind hnotes hturn⟩

/-! ## One session handles what arrived -/

/-- Without a restart and without dropping: what was handled, what is fetched and what is on offer
are the items `held` at first and those that arrived, in order, and the memory and the outputs are
those of the handler on what was handled. -/
structure Direct (key : Item → K) (m : Machine Mem (Item × Ctx) Out) (init : Mem)
    (held : List Item) (s : AckFeed Item Mem K) (notes : List (Note Item Ctx Out)) : Prop where
  arrivals : held ++ notes.filterMap Note.arrival = (notes.filterMap Note.served).map Prod.fst ++
    (s.batch ++ confirm key s.acked s.pending)
  memory : s.memory = m.final init (notes.filterMap Note.served)
  outputs : notes.flatMap Note.outputs = m.trace init (notes.filterMap Note.served)

/-- A note of a run whose server drops nothing and whose consumer stays up. -/
def Note.calm : Note Item Ctx Out → Prop
  | .expired _ => False
  | .restarted => False
  | _ => True

/-- An answer and what is on offer behind it are what was on offer before. -/
theorem reply_append_confirm {s : AckFeed Item Mem K} (hs : Tidy key s) {reply : List Item}
    (hanswer : reply <+: confirm key s.acked s.pending) :
    reply ++ confirm key (advance key s.acked reply) (confirm key s.acked s.pending) =
      confirm key s.acked s.pending := by
  have hsorted : (confirm key s.acked s.pending).Pairwise fun x y => key x < key y :=
    hs.pending_sorted.sublist List.filter_sublist
  obtain ⟨tail, htail⟩ := hanswer
  have hreply : confirm key (advance key s.acked reply) reply = [] := by
    rw [confirm, List.filter_eq_nil_iff]
    intro x hx
    have hle := le_advance key s.acked reply
      (List.pairwise_append.mp (htail.symm ▸ hsorted)).1 x hx
    simpa using hle
  have hbehind : confirm key (advance key s.acked reply) tail = tail := by
    rw [confirm, List.filter_eq_self]
    intro x hx
    rcases advance_cases key s.acked reply with ⟨hsame, -⟩ | ⟨z, hz, hmoved⟩
    · have hmem : x ∈ confirm key s.acked s.pending := htail ▸ List.mem_append_right reply hx
      simpa [hsame] using ((mem_confirm key _ _ x).mp hmem).2
    · have hlt := (List.pairwise_append.mp (htail.symm ▸ hsorted)).2.2 z hz x hx
      simpa [hmoved] using hlt
  rw [← htail]
  have hsplit : confirm key (advance key s.acked reply) (reply ++ tail) =
      confirm key (advance key s.acked reply) reply ++
        confirm key (advance key s.acked reply) tail := by
    simp [confirm]
  rw [hsplit, hreply, hbehind, List.nil_append]

/-- A turn without a restart and without dropping keeps the feed direct. -/
theorem direct_turn {s s' : AckFeed Item Mem K} {notes es : List (Note Item Ctx Out)}
    {held : List Item} (hs : Tidy key s) (hnotes : Direct key m init held s notes)
    (hcalm : ∀ e ∈ es, e.calm) (h : Turn key m init s s' es) :
    Direct key m init held s' (notes ++ es) := by
  obtain ⟨harrivals, hmemory, houtputs⟩ := hnotes
  cases h with
  | still =>
    rw [List.append_nil]
    exact ⟨harrivals, hmemory, houtputs⟩
  | arrive x hnew =>
    refine ⟨?_, ?_, ?_⟩
    · have hx : confirm key s.acked (s.pending ++ [x]) = confirm key s.acked s.pending ++ [x] := by
        simp [confirm, hs.acked_le.trans_lt hnew]
      have harrived : held ++ (notes ++ [Note.arrived x]).filterMap Note.arrival =
          held ++ notes.filterMap Note.arrival ++ [x] := by
        simp [Note.arrival]
      rw [harrived, harrivals]
      simp [hx, List.filterMap_cons, Note.served]
    · simpa [List.filterMap_cons, Note.served] using hmemory
    · simpa [List.filterMap_cons, Note.served, Note.outputs] using houtputs
  | expire x rest hrest => exact absurd (hcalm _ (List.mem_singleton.mpr rfl)) id
  | ask reply hbatch hanswer =>
    refine ⟨?_, ?_, ?_⟩
    · have h := reply_append_confirm hs hanswer
      rw [hbatch, List.nil_append] at harrivals
      simpa [h, List.filterMap_cons, Note.arrival, Note.served] using harrivals
    · simpa [List.filterMap_cons, Note.served] using hmemory
    · simpa [List.filterMap_cons, Note.served, Note.outputs] using houtputs
  | handle x rest c hbatch =>
    refine ⟨?_, ?_, ?_⟩
    · rw [hbatch] at harrivals
      simpa [List.filterMap_cons, Note.arrival, Note.served] using harrivals
    · simp [hmemory, Note.served, Machine.final_concat]
    · simp [houtputs, hmemory, Note.served, Note.outputs, Machine.trace_concat]
  | restart => exact absurd (hcalm _ (List.mem_singleton.mpr rfl)) id

/-- **One session is the handler itself.** While the server drops nothing and the consumer does not
restart, what comes out is what the handler gives on the items that were held at first and those
that arrived, in that order, up to the last one handled. -/
theorem direct_run (s₀ : AckFeed Item Mem K) (hs₀ : Tidy key s₀) (hacked : s₀.acked = ⊥)
    (hbatch : s₀.batch = []) (hmemory : s₀.memory = init) (ls : List (Move Item Ctx))
    (hls : (machine key m init).Along (Served key) s₀ ls)
    (hcalm : ∀ e ∈ (machine key m init).trace s₀ ls, e.calm) :
    Direct key m init s₀.pending ((machine key m init).final s₀ ls)
      ((machine key m init).trace s₀ ls) := by
  refine (run_induction
    (fun s notes => (∀ e ∈ notes, e.calm) → Direct key m init s₀.pending s notes) s₀ hs₀
    ?_ ?_ ls hls).2 hcalm
  · intro _
    refine ⟨?_, hmemory, rfl⟩
    have hall : confirm key ⊥ s₀.pending = s₀.pending := by
      rw [confirm, List.filter_eq_self]
      intro x hx
      exact decide_eq_true (hs₀.pending_pos x hx)
    simp [hacked, hbatch, hall]
  · intro s notes s' es hs hnotes hturn hboth
    obtain ⟨hbefore, hes⟩ := List.forall_mem_append.mp hboth
    exact direct_turn hs (hnotes hbefore) hes hturn

end AckFeed

end TradingEdge.Library
